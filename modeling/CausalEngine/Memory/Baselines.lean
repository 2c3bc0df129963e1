import CausalEngine.Memory.Schema
import CausalEngine.Correlation.Numpy

/-! The steady-state level of each workload, learned slowly and not while the workload is storming. -/

namespace CausalEngine.Memory

open Foundations Correlation

variable (cfg : MemoryConfig) (ts : ℚ)

def BaselineRow.threshold (b : BaselineRow) : ℚ := b.median + cfg.devK * max b.mad cfg.madFloor

def learnBaseline (m : BaselineTable) (pod : String) (vec : Vec) : BaselineTable :=
  if vec.length < 12 then m
  else
    let key := (stableWorkload pod, cfg.signal)
    let med := median vec
    let mad := median (absDev vec med)
    let a := cfg.baseAlpha
    match m.get? key with
    | none => m.insertNew key ⟨med, mad, 1, ts⟩
    | some b =>
      if cfg.baseMinN ≤ b.n ∧ b.threshold cfg < percentile vec 90 then m
      else m.set key ⟨(1 - a) * b.median + a * med, (1 - a) * b.mad + a * mad, b.n + 1, ts⟩

def updateBaselines (vectors : OrderedMap String Vec) (m : BaselineTable) : BaselineTable :=
  vectors.entries.foldl (fun m e => learnBaseline cfg ts m e.1 e.2) m

def baselineThreshold (m : BaselineTable) (workload : String) : Option ℚ :=
  (m.get? (workload, cfg.signal)).bind fun b => if b.n < cfg.baseMinN then none else some (b.threshold cfg)

def learnRow (row : Option BaselineRow) (vec : Vec) : Option BaselineRow :=
  if vec.length < 12 then row
  else
    let med := median vec
    let mad := median (absDev vec med)
    let a := cfg.baseAlpha
    match row with
    | none => some ⟨med, mad, 1, ts⟩
    | some b =>
      if cfg.baseMinN ≤ b.n ∧ b.threshold cfg < percentile vec 90 then some b
      else some ⟨(1 - a) * b.median + a * med, (1 - a) * b.mad + a * mad, b.n + 1, ts⟩

lemma get?_learnBaseline (m : BaselineTable) (pod : String) (vec : Vec) (j : String × String) :
    (learnBaseline cfg ts m pod vec).get? j =
      if j = (stableWorkload pod, cfg.signal) then learnRow cfg ts (m.get? j) vec else m.get? j := by
  by_cases hj : j = (stableWorkload pod, cfg.signal)
  · subst hj
    simp only [learnBaseline, learnRow, if_true]
    split_ifs with hlen
    · rfl
    · cases hm : m.get? (stableWorkload pod, cfg.signal) with
      | none => simp [hm]
      | some b =>
        dsimp only
        split_ifs
        · exact hm
        · simp
  · simp only [learnBaseline, if_neg hj]
    split_ifs
    · rfl
    · cases hm : m.get? (stableWorkload pod, cfg.signal) with
      | none => simp [hj]
      | some b =>
        dsimp only
        split_ifs
        · rfl
        · simp [hj]

lemma get?_updateBaselines (vectors : OrderedMap String Vec) (m : BaselineTable) (w : String) :
    (updateBaselines cfg ts vectors m).get? (w, cfg.signal) =
      (vectors.entries.filter fun e => stableWorkload e.1 = w).foldl (fun row e => learnRow cfg ts row e.2)
        (m.get? (w, cfg.signal)) := by
  rw [updateBaselines]
  induction vectors.entries generalizing m with
  | nil => rfl
  | cons e es ih =>
    rw [List.foldl_cons, ih, get?_learnBaseline]
    by_cases hw : stableWorkload e.1 = w
    · rw [List.filter_cons_of_pos (by simp [hw]), List.foldl_cons, if_pos (by rw [hw])]
    · rw [List.filter_cons_of_neg (by simp [hw]), if_neg (by simp [Ne.symm hw])]

lemma get?_updateBaselines_single {vectors : OrderedMap String Vec} {pod : String} {vec : Vec}
    (hvec : vectors.get? pod = some vec)
    (honly : ∀ p ∈ vectors.keys, stableWorkload p = stableWorkload pod → p = pod) (m : BaselineTable) :
    (updateBaselines cfg ts vectors m).get? (stableWorkload pod, cfg.signal) =
      learnRow cfg ts (m.get? (stableWorkload pod, cfg.signal)) vec := by
  have hfilter : (vectors.entries.filter fun e => stableWorkload e.1 = stableWorkload pod) =
      vectors.entries.filter fun e => e.1 = pod := by
    apply List.filter_congr
    intro e he
    have hk : e.1 ∈ vectors.keys := List.mem_map_of_mem (f := Prod.fst) he
    exact decide_eq_decide.mpr ⟨honly e.1 hk, fun h => by rw [h]⟩
  rw [get?_updateBaselines, hfilter, OrderedMap.filter_key, hvec]
  rfl

lemma learnBaseline_congr {m : BaselineTable} {p q : String} (h : stableWorkload p = stableWorkload q)
    (vec : Vec) : learnBaseline cfg ts m p vec = learnBaseline cfg ts m q vec := by
  simp only [learnBaseline, h]

end CausalEngine.Memory
