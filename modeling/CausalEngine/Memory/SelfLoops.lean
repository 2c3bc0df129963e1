import CausalEngine.Memory.BeliefStep
import CausalEngine.Memory.Held
import CausalEngine.Memory.Production

/-! Self-loops. Edges of a pass join different pods, but memory stores them by workload; a stored loop is
drawn once the workload is down to pods that the pass does not join. -/

namespace CausalEngine.Memory

open Foundations Correlation PassInput

def Loopless (db : Db) : Prop := ∀ k row, db.edgeMemory.get? k = some row → k.src ≠ k.dst

def CrossesWorkloads (o : Observation) : Prop :=
  ∀ e ∈ o.graph.edges, stableWorkload e.src ≠ stableWorkload e.dst

variable (digest : CaseKey → String) {cfg : MemoryConfig} {db : Db} {o : Observation}

lemma loopless_observe (h : Loopless db) (ho : CrossesWorkloads o) : Loopless (observe digest cfg db o).1 := by
  intro k row hrow
  rw [edgeMemory_observe] at hrow
  revert row
  apply updateEdges_row
  · exact h k
  · intro hs
    obtain ⟨-, -, -, hlt⟩ := seeds_present cfg o.present hs
    exact hlt.ne
  · rintro e he rfl - -
    exact ho e he
  · exact fun _ hk => hk

lemma crosses_of_loopless (h : Loopless (observe digest cfg db o).1) : CrossesWorkloads o := by
  intro e he
  have hne : confirmationsOf cfg o (edgeKeyOf cfg e) ≠ [] := fun hnil => confirmationsOf_eq_nil.mp hnil e he rfl
  have hhits := hits_observe_seen db digest hne
  cases hrow : (observe digest cfg db o).1.edgeMemory.get? (edgeKeyOf cfg e) with
  | some row => exact h _ row hrow
  | none =>
    have hpos := List.length_pos_iff.mpr hne
    rw [hrow, Option.elim_none] at hhits
    omega

lemma rendered_distinct {S : Stats} {i : PassInput String} (hi : runPass S i = some o.graph)
    (h : Loopless (observe digest cfg db o).1) :
    ∀ r ∈ (observe digest cfg db o).2.edges, r.edge.src ≠ r.edge.dst := by
  intro r hr
  rw [edges_observe] at hr
  rcases List.mem_append.mp hr with hr | hr
  · obtain ⟨e, he, rfl⟩ := List.mem_map.mp hr
    rw [runPass_eq hi] at he
    exact i.edge_distinct S he
  · obtain ⟨⟨k, row⟩, hmem, hr⟩ := List.mem_filterMap.mp hr
    obtain ⟨hsrc, hdst, -⟩ := mem_heldEdge hr
    intro heq
    apply h k row (mem_heldRows hmem).1
    rw [← workload_wlPod hsrc, ← workload_wlPod hdst, heq]

/-- Over a run of passes neither a stored row nor a rendered edge is a loop exactly when no accepted edge
joins two pods of one workload. -/
theorem self_loop_free_iff (S : Stats) (digest : CaseKey → String) (cfg : MemoryConfig) (xs : List Observation)
    (hxs : ∀ x ∈ xs, ∃ i, runPass S i = some x.graph) :
    (∀ ys o zs, xs = ys ++ o :: zs → Loopless (Runs.final (observe digest cfg) .empty (ys ++ [o])) ∧
      ∀ r ∈ (observe digest cfg (Runs.final (observe digest cfg) .empty ys) o).2.edges, r.edge.src ≠ r.edge.dst) ↔
      ∀ x ∈ xs, CrossesWorkloads x := by
  constructor
  · intro h x hx
    obtain ⟨ys, zs, hsplit⟩ := List.append_of_mem hx
    have hl := (h ys x zs hsplit).1
    rw [Runs.final_append] at hl
    exact crosses_of_loopless digest hl
  · rintro h ys o zs rfl
    have hrun : Loopless (Runs.final (observe digest cfg) .empty (ys ++ [o])) := by
      apply Runs.final_invariant (P := Loopless)
      · intro k row hrow
        simp [Db.empty] at hrow
      · intro db hdb x hx
        apply loopless_observe digest hdb (h x ?_)
        rcases List.mem_append.mp hx with hx | hx
        · exact List.mem_append_left _ hx
        · exact List.mem_append_right _ (List.mem_singleton.mp hx ▸ List.mem_cons_self)
    refine ⟨hrun, ?_⟩
    rw [Runs.final_append] at hrun
    obtain ⟨i, hi⟩ := hxs o (List.mem_append_right _ List.mem_cons_self)
    exact rendered_distinct digest hi hrun

theorem self_loop_free_rollout :
    Loopless (Runs.final (observe (fun _ => "c0") {}) .empty [passObservation rolloutInput]) ∧
      ∀ r ∈ (observe (fun _ => "c0") {} .empty (passObservation rolloutInput)).2.edges,
        r.edge.src ≠ r.edge.dst := by
  have hpass : runPass momentStats rolloutInput = some (rolloutInput.passGraph momentStats) :=
    runPass_ok (by decide +kernel)
  have hcross : CrossesWorkloads (passObservation rolloutInput) := by
    unfold CrossesWorkloads
    decide +kernel
  have hfree := self_loop_free_iff momentStats (fun _ => "c0") {} [passObservation rolloutInput] (by
    intro x hx
    exact ⟨rolloutInput, by rw [List.mem_singleton.mp hx]; exact hpass⟩)
  exact hfree.mpr (fun x hx => List.mem_singleton.mp hx ▸ hcross) [] _ [] rfl

def replicasInput : PassInput String :=
  { rolloutInput with
    vectors := .ofList [("cooling-monitor-5f-x1", stepVec 12 12), ("cooling-monitor-5f-x2", stepVec 12 12)]
    witness := ⟨[], [], [s("cooling-monitor-5f-x1", "cooling-monitor-5f-x2")], []⟩ }

def survivorInput : PassInput String :=
  { rolloutInput with vectors := .ofList [("cooling-monitor-5f-x1", stepVec 24 0)], witness := ⟨[], [], [], []⟩ }

theorem self_loop_rendered :
    FromPass momentStats (passObservation replicasInput) ∧ FromPass momentStats (passObservation survivorInput) ∧
    ((Runs.final (observe (fun _ => "c0") {}) .empty [passObservation replicasInput]).edgeMemory.get?
      ⟨"cooling-monitor", "cooling-monitor", "psi_io"⟩).isSome ∧
    (observe (fun _ => "c0") {} (Runs.final (observe (fun _ => "c0") {}) .empty [passObservation replicasInput])
      (passObservation survivorInput)).2.edges.map (fun r => (r.edge.src, r.edge.dst)) =
        [("cooling-monitor-5f-x1", "cooling-monitor-5f-x1")] := by
  have hreplicas : runPass momentStats replicasInput = some (replicasInput.passGraph momentStats) :=
    runPass_ok (by decide +kernel)
  have hsurvivor : runPass momentStats survivorInput = some (survivorInput.passGraph momentStats) :=
    runPass_ok (by decide +kernel)
  refine ⟨⟨_, hreplicas, rfl, rfl⟩, ⟨_, hsurvivor, rfl, rfl⟩, ?_⟩
  decide +kernel

end CausalEngine.Memory
