import CausalEngine.Correlation.EdgeGates
import CausalEngine.Memory.Production

/-! The update rule of belief, per directed pair of workloads and pass. Confirmation loops over edges
between pods, so a pair whose workloads have several pods can be confirmed several times in one pass. -/

namespace CausalEngine.Memory

open Foundations Correlation

section Rule

variable (cfg : MemoryConfig) (db : Db) (o : Observation)

def beliefBefore (k : EdgeKey) : ℚ :=
  (db.edgeMemory.get? k).elim (if seeds cfg o.present o.witness k then cfg.prior else 0) EdgeRow.confidence

def hitsBefore (k : EdgeKey) : ℕ := (db.edgeMemory.get? k).elim 0 EdgeRow.hits

def known (k : EdgeKey) : Bool := (db.edgeMemory.get? k).isSome || seeds cfg o.present o.witness k

structure OneStep (db' : Db) (k : EdgeKey) : Prop where
  confirmed : (∃ e ∈ o.graph.edges, edgeKeyOf cfg e = k) → ∃ row, db'.edgeMemory.get? k = some row ∧
    row.confidence = beliefBefore cfg db o k + cfg.alpha * (1 - beliefBefore cfg db o k) ∧
      row.hits = hitsBefore db k + 1
  decayed : (∀ e ∈ o.graph.edges, edgeKeyOf cfg e ≠ k) → k.src ∈ o.present → k.dst ∈ o.present →
    known cfg db o k = true → ∃ row, db'.edgeMemory.get? k = some row ∧
      row.confidence = max row.baseConf (beliefBefore cfg db o k * (1 - cfg.decay)) ∧ row.hits = hitsBefore db k
  unknown : (∀ e ∈ o.graph.edges, edgeKeyOf cfg e ≠ k) → known cfg db o k = false → db'.edgeMemory.get? k = none
  absent : k.src ∉ o.present ∨ k.dst ∉ o.present → db'.edgeMemory.get? k = db.edgeMemory.get? k

def seededRow (k : EdgeKey) : Option EdgeRow :=
  if seeds cfg o.present o.witness k then some (seedRow cfg o.ts (db.edgeMemory.get? k)) else db.edgeMemory.get? k

def confirmationsOf (k : EdgeKey) : List (Edge String) := o.graph.edges.filter fun e => edgeKeyOf cfg e = k

end Rule

variable {cfg : MemoryConfig} {db : Db} {o : Observation} {k : EdgeKey}

lemma belief_seededRow : (seededRow cfg db o k).elim 0 EdgeRow.confidence = beliefBefore cfg db o k := by
  rw [seededRow, beliefBefore]
  cases db.edgeMemory.get? k with
  | none => split_ifs <;> rfl
  | some row => split_ifs <;> rfl

lemma hits_seededRow : (seededRow cfg db o k).elim 0 EdgeRow.hits = hitsBefore db k := by
  rw [seededRow, hitsBefore]
  cases db.edgeMemory.get? k with
  | none => split_ifs <;> rfl
  | some row => split_ifs <;> rfl

lemma seededRow_isSome : (seededRow cfg db o k).isSome = known cfg db o k := by
  rw [seededRow, known]
  split_ifs with hs <;> simp [hs]

lemma confirmRow_confidence (ts : ℚ) (e : Edge String) (row : Option EdgeRow) :
    (confirmRow cfg ts e row).confidence =
      row.elim 0 EdgeRow.confidence + cfg.alpha * (1 - row.elim 0 EdgeRow.confidence) := by
  cases row with
  | none => simp [confirmRow, confirmedConf]
  | some o => rfl

lemma confirmations_hits (ts : ℚ) (edges : List (Edge String)) (row : Option EdgeRow) :
    (edges.foldl (fun row e => some (confirmRow cfg ts e row)) row).elim 0 EdgeRow.hits =
      row.elim 0 EdgeRow.hits + edges.length := by
  induction edges generalizing row with
  | nil => rfl
  | cons e edges ih =>
    rw [List.foldl_cons, ih, List.length_cons]
    cases row with
    | none => simp [confirmRow, Nat.add_comm]
    | some o => simp [confirmRow, Nat.add_assoc, Nat.add_comm]

section Observed

variable (digest : CaseKey → String)

lemma row_observe : (observe digest cfg db o).1.edgeMemory.get? k =
    ((confirmationsOf cfg o k).foldl (fun row e => some (confirmRow cfg o.ts e row)) (seededRow cfg db o k)).map
      fun row => if decays cfg o.present (o.graph.edges.map (edgeKeyOf cfg)) k then decayRow cfg o.ts row else row := by
  rw [edgeMemory_observe, get?_updateEdges]
  rfl

variable (db) in
lemma row_observe_seen (h : confirmationsOf cfg o k ≠ []) : (observe digest cfg db o).1.edgeMemory.get? k =
    (confirmationsOf cfg o k).foldl (fun row e => some (confirmRow cfg o.ts e row)) (seededRow cfg db o k) := by
  obtain ⟨e, he⟩ := List.exists_mem_of_ne_nil _ h
  obtain ⟨he, hk⟩ := List.mem_filter.mp he
  have hd : ¬ decays cfg o.present (o.graph.edges.map (edgeKeyOf cfg)) k :=
    fun hd => hd.2.1 (List.mem_map.mpr ⟨e, he, of_decide_eq_true hk⟩)
  simp only [row_observe, if_neg hd, Option.map_id']

lemma confirmationsOf_eq_nil : confirmationsOf cfg o k = [] ↔ ∀ e ∈ o.graph.edges, edgeKeyOf cfg e ≠ k := by
  simp [confirmationsOf, List.filter_eq_nil_iff]

variable (db) in
lemma hits_observe_seen (h : confirmationsOf cfg o k ≠ []) :
    ((observe digest cfg db o).1.edgeMemory.get? k).elim 0 EdgeRow.hits =
      hitsBefore db k + (confirmationsOf cfg o k).length := by
  rw [row_observe_seen db digest h, confirmations_hits, hits_seededRow]

lemma row_observe_unseen (h : confirmationsOf cfg o k = []) (hs : k.signal = cfg.signal)
    (hsrc : k.src ∈ o.present) (hdst : k.dst ∈ o.present) : (observe digest cfg db o).1.edgeMemory.get? k =
      (seededRow cfg db o k).map (decayRow cfg o.ts) := by
  have hseen : k ∉ o.graph.edges.map (edgeKeyOf cfg) := by
    intro hk
    obtain ⟨e, he, hek⟩ := List.mem_map.mp hk
    exact confirmationsOf_eq_nil.mp h e he hek
  have hd : decays cfg o.present (o.graph.edges.map (edgeKeyOf cfg)) k := ⟨hs, hseen, hsrc, hdst⟩
  simp only [row_observe, h, List.foldl_nil, if_pos hd]

lemma row_observe_absent (h : confirmationsOf cfg o k = []) (ha : k.src ∉ o.present ∨ k.dst ∉ o.present) :
    (observe digest cfg db o).1.edgeMemory.get? k = db.edgeMemory.get? k := by
  have hd : ¬ decays cfg o.present (o.graph.edges.map (edgeKeyOf cfg)) k := by
    rintro ⟨-, -, hsrc, hdst⟩
    exact ha.elim (fun hn => hn hsrc) fun hn => hn hdst
  have hs : ¬ seeds cfg o.present o.witness k = true := by
    intro hs
    obtain ⟨-, hsrc, hdst, -⟩ := seeds_present cfg o.present hs
    exact ha.elim (fun hn => hn hsrc) fun hn => hn hdst
  simp only [row_observe, h, List.foldl_nil, if_neg hd, Option.map_id', seededRow, if_neg hs]

lemma oneStep_of_single (hs : k.signal = cfg.signal) (h : (confirmationsOf cfg o k).length ≤ 1)
    (hin : ∀ e ∈ o.graph.edges, edgeKeyOf cfg e = k → k.src ∈ o.present ∧ k.dst ∈ o.present) :
    OneStep cfg db o (observe digest cfg db o).1 k := by
  refine ⟨?_, ?_, ?_, ?_⟩
  · rintro ⟨e, he, hk⟩
    obtain ⟨d, hd⟩ : ∃ d, confirmationsOf cfg o k = [d] := by
      apply List.length_eq_one_iff.mp
      have hmem : e ∈ confirmationsOf cfg o k := List.mem_filter.mpr ⟨he, decide_eq_true hk⟩
      have hpos := List.length_pos_of_mem hmem
      omega
    have hrow := row_observe_seen db digest (hd ▸ List.cons_ne_nil d [])
    have hhits := hits_observe_seen db digest (hd ▸ List.cons_ne_nil d [])
    rw [hd, List.foldl_cons, List.foldl_nil] at hrow
    rw [hd, hrow] at hhits
    refine ⟨_, hrow, ?_, hhits⟩
    rw [confirmRow_confidence, belief_seededRow]
  · intro hno hsrc hdst hknown
    rw [← seededRow_isSome] at hknown
    obtain ⟨row, hrow⟩ := Option.isSome_iff_exists.mp hknown
    have hbelief : (seededRow cfg db o k).elim 0 EdgeRow.confidence = beliefBefore cfg db o k := belief_seededRow
    have hhits : (seededRow cfg db o k).elim 0 EdgeRow.hits = hitsBefore db k := hits_seededRow
    rw [hrow] at hbelief hhits
    refine ⟨decayRow cfg o.ts row, ?_, ?_, hhits⟩
    · rw [row_observe_unseen digest (confirmationsOf_eq_nil.mpr hno) hs hsrc hdst, hrow]
      rfl
    · rw [← hbelief]
      rfl
  · intro hno hknown
    have hnone : seededRow cfg db o k = none := by
      rw [← Option.not_isSome_iff_eq_none, seededRow_isSome, hknown]
      exact Bool.false_ne_true
    rw [row_observe, confirmationsOf_eq_nil.mpr hno, List.foldl_nil, hnone]
    rfl
  · intro ha
    apply row_observe_absent digest (confirmationsOf_eq_nil.mpr ?_) ha
    intro e he hk
    obtain ⟨hsrc, hdst⟩ := hin e he hk
    exact ha.elim (fun hn => hn hsrc) fun hn => hn hdst

lemma confirmationsOf_count : (confirmationsOf cfg o k).length = (o.graph.edges.map (edgeKeyOf cfg)).count k := by
  rw [confirmationsOf, ← List.countP_eq_length_filter, List.count, List.countP_map]
  congr 1

end Observed

/-- One pass moves every belief by one step exactly when no two of its edges join the same workloads in
the same direction, and all of them join workloads that are present. -/
theorem belief_step_iff (digest : CaseKey → String) (cfg : MemoryConfig) (db : Db) (o : Observation) :
    (∀ src dst, OneStep cfg db o (observe digest cfg db o).1 ⟨src, dst, cfg.signal⟩) ↔
      (o.graph.edges.map (edgeKeyOf cfg)).Nodup ∧
        ∀ e ∈ o.graph.edges, stableWorkload e.src ∈ o.present ∧ stableWorkload e.dst ∈ o.present := by
  constructor
  · intro h
    have hstep : ∀ e ∈ o.graph.edges, OneStep cfg db o (observe digest cfg db o).1 (edgeKeyOf cfg e) :=
      fun e _ => h _ _
    have hne : ∀ e ∈ o.graph.edges, confirmationsOf cfg o (edgeKeyOf cfg e) ≠ [] :=
      fun e he hnil => confirmationsOf_eq_nil.mp hnil e he rfl
    constructor
    · rw [List.nodup_iff_count_le_one]
      intro k
      by_cases hk : k ∈ o.graph.edges.map (edgeKeyOf cfg)
      · obtain ⟨e, he, rfl⟩ := List.mem_map.mp hk
        obtain ⟨row, hrow, -, hhits⟩ := (hstep e he).confirmed ⟨e, he, rfl⟩
        have hall := hits_observe_seen db digest (hne e he)
        rw [hrow, Option.elim_some, hhits] at hall
        rw [← confirmationsOf_count]
        omega
      · rw [List.count_eq_zero_of_not_mem hk]
        exact Nat.zero_le 1
    · intro e he
      by_contra hno
      have habs := (hstep e he).absent (by
        by_contra hin
        push Not at hin
        exact hno hin)
      have hall := hits_observe_seen db digest (hne e he)
      have hpos := List.length_pos_iff.mpr (hne e he)
      rw [habs, ← hitsBefore] at hall
      omega
  · rintro ⟨hnd, hin⟩ src dst
    apply oneStep_of_single digest rfl
    · rw [confirmationsOf_count]
      exact List.nodup_iff_count_le_one.mp hnd _
    · rintro e he hk
      obtain ⟨rfl, rfl, -⟩ := EdgeKey.mk.inj hk
      exact hin e he

def settledInput : PassInput String where
  vectors := .ofList [("cooling-monitor-5f-x1", stepVec 12 12), ("timescaledb-7c-z9", stepVec 13 11)]
  witness := ⟨[], [], [s("cooling-monitor-5f-x1", "timescaledb-7c-z9")], []⟩
  sloBreach := []
  caps := .empty
  window := none
  writeVectors := .empty
  baselines := none
  recent := none

theorem belief_step_iff_settled : (passObservation settledInput).graph.edges.map (edgeKeyOf {}) =
      [⟨"cooling-monitor", "timescaledb", "psi_io"⟩] ∧
    ∀ src dst, OneStep {} .empty (passObservation settledInput)
      (observe (fun _ => "c0") {} .empty (passObservation settledInput)).1 ⟨src, dst, "psi_io"⟩ := by
  refine ⟨by decide +kernel, ?_⟩
  exact (belief_step_iff (fun _ => "c0") {} .empty (passObservation settledInput)).mpr (by decide +kernel)

def rolloutInput : PassInput String where
  vectors := .ofList [("cooling-monitor-5f-x1", stepVec 12 12), ("cooling-monitor-5f-x2", stepVec 12 12),
    ("timescaledb-7c-z9", stepVec 12 12)]
  witness := ⟨[], [], [s("cooling-monitor-5f-x1", "timescaledb-7c-z9"),
    s("cooling-monitor-5f-x2", "timescaledb-7c-z9")], []⟩
  sloBreach := []
  caps := .empty
  window := none
  writeVectors := .empty
  baselines := none
  recent := none

def rolloutKey : EdgeKey := ⟨"cooling-monitor", "timescaledb", "psi_io"⟩

theorem belief_step_twice : FromPass momentStats (passObservation rolloutInput) ∧
    beliefBefore {} .empty (passObservation rolloutInput) rolloutKey = 20 / 100 ∧
    ((observe (fun _ => "c0") {} .empty (passObservation rolloutInput)).1.edgeMemory.get? rolloutKey).map
      (fun row => (row.confidence, row.hits)) = some (712 / 1000, 2) ∧
    ¬ OneStep {} .empty (passObservation rolloutInput)
      (observe (fun _ => "c0") {} .empty (passObservation rolloutInput)).1 rolloutKey := by
  have hpass : runPass momentStats rolloutInput = some (rolloutInput.passGraph momentStats) :=
    PassInput.runPass_ok (by decide +kernel)
  obtain ⟨hbelief, hrow, hmem⟩ : beliefBefore {} .empty (passObservation rolloutInput) rolloutKey = 20 / 100 ∧
      ((observe (fun _ => "c0") {} .empty (passObservation rolloutInput)).1.edgeMemory.get? rolloutKey).map
        (fun row => (row.confidence, row.hits)) = some (712 / 1000, 2) ∧
      ∃ e ∈ (passObservation rolloutInput).graph.edges, edgeKeyOf {} e = rolloutKey := by decide +kernel
  refine ⟨⟨rolloutInput, hpass, rfl, rfl⟩, hbelief, hrow, ?_⟩
  intro hstep
  obtain ⟨row, hget, -, hhits⟩ := hstep.confirmed hmem
  rw [hget, Option.map_some, Option.some.injEq, Prod.mk.injEq, hhits] at hrow
  exact absurd hrow.2 (by decide)

end CausalEngine.Memory
