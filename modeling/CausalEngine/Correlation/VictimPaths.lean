import CausalEngine.Foundations.Trails
import CausalEngine.Correlation.BlastRadius

/-! The path behind each predicted victim. The search carries the decayed weight and the summed lag of a
path that never returns to a pod, and every part of that path from the root is above the cut. -/

namespace CausalEngine.Correlation

open Foundations DiGraph

variable {Pod : Type} [DecidableEq Pod] (g : DiGraph Pod)

abbrev Path (Pod : Type) := List (Pod × ArcData)

def IsPath : Pod → Path Pod → Prop
  | _, [] => True
  | u, hop :: p => ((u, hop.1), hop.2) ∈ g.entries ∧ IsPath hop.1 p

namespace Path

variable {Pod : Type}

def pods (root : Pod) (p : Path Pod) : List Pod := root :: p.map Prod.fst

def strength (p : Path Pod) : ℚ := (p.map fun hop => hop.2.weight.val * decay).prod

def delay (p : Path Pod) : ℤ := (p.map fun hop => hop.2.lagS).sum

lemma pods_snoc (root : Pod) (p : Path Pod) (hop : Pod × ArcData) :
    pods root (p ++ [hop]) = pods root p ++ [hop.1] := by
  simp [pods]

lemma strength_snoc (p : Path Pod) (hop : Pod × ArcData) :
    strength (p ++ [hop]) = strength p * hop.2.weight.val * decay := by
  simp [strength, mul_assoc]

lemma delay_snoc (p : Path Pod) (hop : Pod × ArcData) : delay (p ++ [hop]) = delay p + hop.2.lagS := by
  simp [delay]

end Path

variable {g} {root : Pod}

omit [DecidableEq Pod] in
lemma IsPath.snoc {p : Path Pod} {u v : Pod} {a : ArcData} (h : IsPath g root p)
    (hu : (p.pods root).getLast? = some u) (ha : ((u, v), a) ∈ g.entries) : IsPath g root (p ++ [(v, a)]) := by
  induction p generalizing root with
  | nil =>
    obtain rfl : root = u := by simpa [Path.pods] using hu
    exact ⟨ha, trivial⟩
  | cons hop p ih => exact ⟨h.1, ih h.2 (by simpa [Path.pods] using hu)⟩

lemma path_of_trail {n : Pod} {b : ℚ × ℤ} {l : List (Pod × (ℚ × ℤ))}
    (h : (blastSearch g).Trail (fun c => cut ≤ c.2.1) (root, (1, 0)) ((n, b) :: l)) :
    ∃ p : Path Pod, IsPath g root p ∧ p.pods root = (((n, b) :: l).map Prod.fst).reverse ∧
      p.strength = b.1 ∧ p.delay = b.2 ∧ ∀ q, q <+: p → cut ≤ Path.strength q := by
  generalize ht : (n, b) :: l = t at h
  induction h generalizing n b l with
  | start =>
    obtain ⟨hx, rfl⟩ := List.cons.inj ht
    obtain ⟨rfl, rfl⟩ := Prod.mk.inj hx
    refine ⟨[], trivial, rfl, rfl, rfl, ?_⟩
    intro q hq
    rw [List.prefix_nil.mp hq]
    norm_num [Path.strength, cut]
  | @step y c l' _ hc hcut _ ih =>
    obtain ⟨rfl, rfl⟩ := List.cons.inj ht
    obtain ⟨p, hp, hpods, hstrength, hdelay, hpre⟩ := ih (n := y.1) (b := y.2) (l := l') rfl
    obtain ⟨⟨v, a⟩, ho, heq⟩ := List.mem_map.mp hc
    obtain ⟨rfl, rfl⟩ := Prod.mk.inj heq
    have hlast : (p.pods root).getLast? = some y.1 := by rw [hpods]; simp
    have hw : Path.strength (p ++ [(v, a)]) = y.2.1 * a.weight.val * decay := by
      rw [Path.strength_snoc, hstrength]
    refine ⟨p ++ [(v, a)], hp.snoc hlast ((mem_outEdges g).mp ho), ?_, hw, ?_, ?_⟩
    · rw [Path.pods_snoc, hpods]
      simp
    · rw [Path.delay_snoc, hdelay]
    · intro q hq
      rcases List.prefix_concat_iff.mp hq with rfl | hq
      · rw [hw]
        exact hcut
      · exact hpre q hq

lemma blastSearch_stable (g : DiGraph Pod) (root : Pod) :
    ∃ r, ∀ k, walkFuel g ≤ k → (blastSearch g).loop k [(root, (1, 0))] (.ofList [(root, (1, 0))]) = some r := by
  obtain ⟨r, hr⟩ := blastSearch_terminates g root (.ofList [(root, (1, 0))])
  exact ⟨r, fun k hk => (blastSearch g).loop_mono hk hr⟩

lemma path_of_victim {b : Impact Pod} (hb : b ∈ blastRadius g root) :
    ∃ p : Path Pod, IsPath g root p ∧ (p.pods root).Nodup ∧ (p.pods root).getLast? = some b.pod ∧
      (∀ q, q <+: p → cut ≤ Path.strength q) ∧ b.impact = roundTo 3 p.strength ∧ b.etaS = p.delay := by
  obtain ⟨r, hr⟩ := blastSearch_terminates g root (.ofList [(root, (1, 0))])
  obtain ⟨-, -, w, hw, hi⟩ := (mem_blastRadius hr).mp hb
  have ht := Search.Trailed.loop (fun m c ha => ((blastSearch_firstVisit g).admits m c).mp ha) hr
  obtain ⟨l, hl, -⟩ := ht.trail (b.pod, (w, b.etaS)) hw
  obtain ⟨p, hp, hpods, hstrength, hdelay, hpre⟩ := path_of_trail hl
  refine ⟨p, hp, ?_, ?_, hpre, ?_, hdelay.symm⟩
  · rw [hpods]
    exact List.nodup_reverse.mpr hl.nodup
  · rw [hpods]
    simp
  · rw [hi, hstrength]

lemma blastRadius_sorted : (blastRadius g root).Pairwise fun a b => b.impact ≤ a.impact := by
  rw [blastRadius]
  split_ifs
  · refine (List.pairwise_insertionSort (fun a b : Impact Pod => -a.impact ≤ -b.impact) _).imp ?_
    exact fun h => neg_le_neg_iff.mp h
  · exact List.Pairwise.nil

/-- The search ends, and each pod it lists, once and never the root, is backed by a path of the graph. -/
theorem blast_radius_backed (E : List (Edge Pod)) (root : Pod) :
    (∃ r, ∀ k, walkFuel (buildGraph E) ≤ k →
      (blastSearch (buildGraph E)).loop k [(root, (1, 0))] (.ofList [(root, (1, 0))]) = some r) ∧
    ((blastRadius (buildGraph E) root).map Impact.pod).Nodup ∧
    ((blastRadius (buildGraph E) root).Pairwise fun a b => b.impact ≤ a.impact) ∧
    ∀ b ∈ blastRadius (buildGraph E) root, b.pod ≠ root ∧
      ∃ p : Path Pod, IsPath (buildGraph E) root p ∧ (p.pods root).Nodup ∧ (p.pods root).getLast? = some b.pod ∧
        (∀ q, q <+: p → cut ≤ Path.strength q) ∧ b.impact = roundTo 3 p.strength ∧ b.etaS = p.delay :=
  ⟨blastSearch_stable _ root, blastRadius_pods_nodup, blastRadius_sorted,
    fun _ hb => ⟨(impact_of_listed hb).1, path_of_victim hb⟩⟩

example : (blastRadius (buildGraph diamond) "loader").map (fun b => (b.pod, b.impact, b.etaS)) =
    [("broker", 7 / 10, 5), ("database", 49 / 100, 10), ("cache", 35 / 100, 5)] := by decide +kernel

end CausalEngine.Correlation
