import CausalEngine.Foundations.Worklist
import CausalEngine.Correlation.Basic
import Mathlib.Data.List.Sort
import Mathlib.Order.WithBot

/-! Root-cause ranking and blast radius over a digraph of accepted edges. A graph is the insertion-
ordered map from ordered pairs to edge data; its nodes are the end points in order of appearance. -/

namespace CausalEngine.Correlation

open Foundations

def decay : ℚ := 7 / 10
def cut : ℚ := 15 / 100
def upstreamPenalty : ℚ := 5 / 10

structure ArcData where
  weight : Weight
  lagS : ℤ
  evidence : List Evidence

abbrev DiGraph (Pod : Type) := OrderedMap (Pod × Pod) ArcData

variable {Pod : Type} [DecidableEq Pod]

def Edge.arc (e : Edge Pod) : (Pod × Pod) × ArcData := ((e.src, e.dst), ⟨e.r.abs, e.lagS, e.evidence⟩)

def buildGraph (edges : List (Edge Pod)) : DiGraph Pod := OrderedMap.ofList (edges.map Edge.arc)

namespace DiGraph

def nodes (g : DiGraph Pod) : List Pod := (g.keys.flatMap fun k => [k.1, k.2]).eraseDups

def outEdges (g : DiGraph Pod) (n : Pod) : List (Pod × ArcData) :=
  (g.entries.filter fun e => e.1.1 = n).map fun e => (e.1.2, e.2)

def inDegree (g : DiGraph Pod) (n : Pod) : ℕ := (g.keys.filter fun k => k.2 = n).length

end DiGraph

open DiGraph

def impactSearch (g : DiGraph Pod) : Search Pod ℚ where
  expand x := (outEdges g x.1).map fun o => (o.1, x.2 * o.2.weight.val * decay)
  admits m c := !(decide (c.2 < cut) || decide (c.2 ≤ (m.get? c.1).getD 0))

def blastSearch (g : DiGraph Pod) : Search Pod (ℚ × ℤ) where
  expand x := (outEdges g x.1).map fun o => (o.1, (x.2.1 * o.2.weight.val * decay, x.2.2 + o.2.lagS))
  admits m c := !(decide (c.1 ∈ m.keys) || decide (c.2.1 < cut))

/-- Fuel for the two walks: a walk survives at most five hops, as `decay ^ 6 < cut`. -/
def walkFuel (g : DiGraph Pod) : ℕ := (g.entries.length + 1) ^ 5

def forwardImpact (g : DiGraph Pod) (root : Pod) : OrderedMap Pod ℚ :=
  ((impactSearch g).loop (walkFuel g) [(root, 1)] .empty).getD .empty

def seedSet (g : DiGraph Pod) (seeds : List Pod) : List Pod :=
  let onGraph := seeds.filter (· ∈ nodes g)
  if onGraph = [] then nodes g else onGraph

def reach (g : DiGraph Pod) (seeds : List Pod) (n : Pod) : ℚ :=
  (((forwardImpact g n).entries.filter fun e => e.1 ∈ seeds).map Prod.snd).sum

def explain (g : DiGraph Pod) (seeds : List Pod) (n : Pod) : ℚ :=
  let own := if n ∈ seeds ∧ inDegree g n = 0 then reach g seeds n + 1 else reach g seeds n
  if 0 < inDegree g n then own * upstreamPenalty else own

def scores (g : DiGraph Pod) (seeds : List Pod) : List (Pod × ℚ) :=
  ((nodes g).map fun n => (n, explain g seeds n)).filter fun s => 0 < s.2

def rankKey (onsetS : OrderedMap Pod ℚ) (s : Pod × ℚ) : ℚ ×ₗ WithTop ℚ :=
  toLex (-s.2, (onsetS.get? s.1).elim ⊤ fun t => (t : WithTop ℚ))

def ranked (sc : List (Pod × ℚ)) (onsetS : OrderedMap Pod ℚ) : List (RootCause Pod) :=
  let total := (sc.map Prod.snd).sum
  ((sc.insertionSort fun a b => rankKey onsetS a ≤ rankKey onsetS b).take 3).map fun s =>
    ⟨s.1, roundTo 3 (s.2 / total), onsetS.get? s.1⟩

def rankRootCauses (g : DiGraph Pod) (seeds : List Pod) (onsetS : OrderedMap Pod ℚ) :
    List (RootCause Pod) :=
  if g.entries = [] then [] else ranked (scores g (seedSet g seeds)) onsetS

def blastRadius (g : DiGraph Pod) (root : Pod) : List (Impact Pod) :=
  if root ∈ nodes g then
    let seen := ((blastSearch g).loop (walkFuel g) [(root, (1, 0))] (.ofList [(root, (1, 0))])).getD .empty
    let out : List (Impact Pod) := seen.entries.tail.map fun e => ⟨e.1, roundTo 3 e.2.1, e.2.2⟩
    out.insertionSort fun a b => -a.impact ≤ -b.impact
  else []

section Termination

def hops : ℕ → ℚ → ℕ
  | 0, _ => 0
  | k + 1, w => if cut ≤ w * decay then hops k (w * decay) + 1 else 0

lemma hops_mono (k : ℕ) {v w : ℚ} (h : v ≤ w) : hops k v ≤ hops k w := by
  induction k generalizing v w with
  | zero => exact le_rfl
  | succ k ih =>
    have hd : v * decay ≤ w * decay := mul_le_mul_of_nonneg_right h (by norm_num [decay])
    simp only [hops]
    split_ifs with hv hw
    · exact Nat.succ_le_succ (ih hd)
    · exact absurd (hv.trans hd) hw
    · exact Nat.zero_le _
    · exact le_rfl

lemma hops_saturate (k : ℕ) {w : ℚ} (h : w * decay ^ (k + 1) < cut) : hops (k + 1) w ≤ hops k w := by
  induction k generalizing w with
  | zero => simp [hops, not_le.mpr (by simpa using h : w * decay < cut)]
  | succ k ih =>
    have hk := ih (w := w * decay) (by rwa [mul_assoc, ← pow_succ'])
    have he : hops (k + 1) w = if cut ≤ w * decay then hops k (w * decay) + 1 else 0 := rfl
    rw [hops, he]
    split_ifs with hw
    · exact Nat.succ_le_succ hk
    · exact le_rfl

lemma hops_le (k : ℕ) (w : ℚ) : hops k w ≤ k := by
  induction k generalizing w with
  | zero => exact le_rfl
  | succ k ih =>
    simp only [hops]
    split_ifs
    · exact Nat.succ_le_succ (ih _)
    · exact Nat.zero_le _

lemma outEdges_length (g : DiGraph Pod) (n : Pod) : (outEdges g n).length ≤ g.entries.length := by
  simpa only [outEdges, List.length_map] using List.length_filter_le _ _

lemma decayed_bounds {w : ℚ} (h₀ : 0 ≤ w) (a : Weight) :
    0 ≤ w * a.val * decay ∧ w * a.val * decay ≤ w * decay := by
  obtain ⟨a, ha₀, ha₁⟩ := a
  have hd : (0 : ℚ) ≤ decay := by norm_num [decay]
  exact ⟨by positivity, mul_le_mul_of_nonneg_right (mul_le_of_le_one_right h₀ ha₁) hd⟩

lemma hops_drop {v w : ℚ} (hw : w ≤ 1) (hv : v ≤ w * decay) (hc : cut ≤ v) : hops 5 v < hops 5 w := by
  have hd : v ≤ decay := hv.trans (mul_le_of_le_one_left (by norm_num [decay]) hw)
  have hs : hops 5 v ≤ hops 4 v := by
    apply hops_saturate
    calc v * decay ^ 5 ≤ decay * decay ^ 5 := mul_le_mul_of_nonneg_right hd (by norm_num [decay])
      _ < cut := by norm_num [decay, cut]
  have hw' : hops 5 w = hops 4 (w * decay) + 1 := by rw [hops, if_pos (hc.trans hv)]
  have hm := hops_mono 4 hv
  omega

lemma walk_potential {β : Type} (value : β → ℚ) (g : DiGraph Pod) (x : Pod × β)
    (next : ℚ → ArcData → β → β) (hx₀ : 0 ≤ value x.2) (hx₁ : value x.2 ≤ 1)
    (hnext : ∀ a b, value (next (value x.2) a b) = value x.2 * a.weight.val * decay) :
    (((((outEdges g x.1).map fun o => (o.1, next (value x.2) o.2 x.2)).filter fun c =>
      decide (cut ≤ value c.2)).map fun c => (g.entries.length + 1) ^ hops 5 (value c.2)).sum) <
      (g.entries.length + 1) ^ hops 5 (value x.2) := by
  refine Search.branching_potential (fun c => hops 5 (value c.2)) ?_ ?_
  · refine (List.length_filter_le _ _).trans ?_
    simpa only [List.length_map] using outEdges_length g x.1
  · intro c hc
    obtain ⟨hc, hcut⟩ := List.mem_filter.mp hc
    obtain ⟨o, _, rfl⟩ := List.mem_map.mp hc
    have hb := (decayed_bounds hx₀ o.2.weight).2
    rw [← hnext o.2 x.2] at hb
    exact hops_drop hx₁ hb (of_decide_eq_true hcut)

omit [DecidableEq Pod] in
lemma start_potential (g : DiGraph Pod) : (g.entries.length + 1) ^ hops 5 1 ≤ walkFuel g :=
  Nat.pow_le_pow_right (Nat.succ_pos _) (hops_le 5 1)

lemma impactSearch_terminates (g : DiGraph Pod) (root : Pod) :
    ∃ m, (impactSearch g).loop (walkFuel g) [(root, 1)] .empty = some m := by
  refine (impactSearch g).loop_terminates (fun c => decide (cut ≤ c.2))
    (fun x => 0 ≤ x.2 ∧ x.2 ≤ 1) (fun c => (g.entries.length + 1) ^ hops 5 c.2)
    ?_ ?_ ?_ .empty (by simp) (by simpa using start_potential g)
  · intro m c h
    simp only [impactSearch, Bool.not_eq_true', Bool.or_eq_false_iff, decide_eq_false_iff_not, not_lt] at h
    exact decide_eq_true h.1
  · rintro x ⟨h₀, h₁⟩ c hc
    obtain ⟨o, _, rfl⟩ := List.mem_map.mp hc
    obtain ⟨hb₀, hb₁⟩ := decayed_bounds h₀ o.2.weight
    exact ⟨hb₀, hb₁.trans (mul_le_one₀ h₁ (by norm_num [decay]) (by norm_num [decay]))⟩
  · rintro x ⟨h₀, h₁⟩
    exact walk_potential id g x (fun w a _ => w * a.weight.val * decay) h₀ h₁ (fun _ _ => rfl)

lemma blastSearch_terminates (g : DiGraph Pod) (root : Pod) (m : OrderedMap Pod (ℚ × ℤ)) :
    ∃ r, (blastSearch g).loop (walkFuel g) [(root, (1, 0))] m = some r := by
  refine (blastSearch g).loop_terminates (fun c => decide (cut ≤ c.2.1))
    (fun x => 0 ≤ x.2.1 ∧ x.2.1 ≤ 1) (fun c => (g.entries.length + 1) ^ hops 5 c.2.1)
    ?_ ?_ ?_ m (by simp) (by simpa using start_potential g)
  · intro m c h
    simp only [blastSearch, Bool.not_eq_true', Bool.or_eq_false_iff, decide_eq_false_iff_not, not_lt] at h
    exact decide_eq_true h.2
  · rintro x ⟨h₀, h₁⟩ c hc
    obtain ⟨o, _, rfl⟩ := List.mem_map.mp hc
    obtain ⟨hb₀, hb₁⟩ := decayed_bounds h₀ o.2.weight
    exact ⟨hb₀, hb₁.trans (mul_le_one₀ h₁ (by norm_num [decay]) (by norm_num [decay]))⟩
  · rintro x ⟨h₀, h₁⟩
    exact walk_potential Prod.fst g x (fun w a b => (w * a.weight.val * decay, b.2 + a.lagS)) h₀ h₁
      (fun _ _ => rfl)

end Termination

end CausalEngine.Correlation
