import CausalEngine.Correlation.Routes
import CausalEngine.Foundations.Selection

/-! Graphs with the same arcs and weights, in any order and with any lags. The impacts, the scores and,
where no two scores tie, the ranking depend on nothing else; an impact is that of a best walk. -/

namespace CausalEngine.Correlation

open Foundations DiGraph

variable {Pod : Type} [DecidableEq Pod]

namespace DiGraph

variable (g h : DiGraph Pod)

def weight (k : Pod × Pod) : Option Weight := (g.get? k).map ArcData.weight

def SameWeights : Prop := ∀ k, weight g k = weight h k

variable {g h}

lemma mem_keys_weight {k : Pod × Pod} : k ∈ g.keys ↔ ∃ w, weight g k = some w := by
  rw [OrderedMap.mem_keys]
  constructor
  · exact fun ⟨a, ha⟩ => ⟨a.weight, by rw [weight, ha]; rfl⟩
  · rintro ⟨w, hw⟩
    obtain ⟨a, ha, -⟩ := Option.map_eq_some_iff.mp hw
    exact ⟨a, ha⟩

lemma factor_iff {u v : Pod} {f : ℚ} :
    factor g u v f ↔ ∃ w, weight g (u, v) = some w ∧ f = w.val * decay := by
  simp only [factor, weight, Option.map_eq_some_iff, OrderedMap.get?_eq_some]
  constructor
  · rintro ⟨a, ha, rfl⟩
    exact ⟨_, ⟨a, ha, rfl⟩, rfl⟩
  · rintro ⟨_, ⟨a, ha, rfl⟩, rfl⟩
    exact ⟨a, ha, rfl⟩

lemma weight_append (E F : List (Edge Pod)) (k : Pod × Pod) :
    weight (buildGraph (E ++ F)) k = (weight (buildGraph F) k).or (weight (buildGraph E) k) := by
  rw [weight, buildGraph, List.map_append, OrderedMap.get?_ofList_append, Option.map_or]
  rfl

section Same

variable (hw : SameWeights g h)
include hw

lemma SameWeights.keys : g.keys.Perm h.keys := by
  apply (List.perm_ext_iff_of_nodup g.keys_nodup h.keys_nodup).mpr
  intro k
  rw [mem_keys_weight, mem_keys_weight, hw k]

lemma SameWeights.nodes : (nodes g).Perm (nodes h) := by
  apply (List.perm_ext_iff_of_nodup (nodup_eraseDups _) (nodup_eraseDups _)).mpr
  intro n
  change n ∈ DiGraph.nodes g ↔ n ∈ DiGraph.nodes h
  simp only [mem_nodes, hw.keys.mem_iff]

lemma SameWeights.inDegree (n : Pod) : inDegree g n = inDegree h n := (hw.keys.filter _).length_eq

lemma SameWeights.route {root n : Pod} {k : ℕ} {w : ℚ} : Route g root k n w ↔ Route h root k n w :=
  Walk.congr fun u v f => by rw [factor_iff, factor_iff, hw (u, v)]

lemma SameWeights.forwardImpact (root : Pod) : (forwardImpact g root).entries.Perm (forwardImpact h root).entries := by
  apply OrderedMap.perm_iff_get?.mpr
  intro n
  ext v
  simp only [forwardImpact_greatest, hw.route]

lemma SameWeights.explain {seeds seeds' : List Pod} (hs : ∀ n, n ∈ seeds ↔ n ∈ seeds') (n : Pod) :
    explain g seeds n = explain h seeds' n := by
  have hr : reach g seeds n = reach h seeds' n := by
    simp only [reach, hs]
    exact (((hw.forwardImpact n).filter fun e => decide (e.1 ∈ seeds')).map Prod.snd).sum_eq
  simp only [Correlation.explain, hr, hw.inDegree n, hs]

lemma SameWeights.scores {seeds seeds' : List Pod} (hs : ∀ n, n ∈ seeds ↔ n ∈ seeds') :
    (scores g seeds).Perm (scores h seeds') := by
  simp only [Correlation.scores, hw.explain hs]
  exact (hw.nodes.map _).filter _

end Same

end DiGraph

lemma sameWeights_of_entries {g h : DiGraph Pod} (hp : g.entries.Perm h.entries) : SameWeights g h := by
  intro k
  rw [weight, weight, OrderedMap.perm_iff_get?.mp hp k]

lemma sameWeights_of_perm {E F : List (Edge Pod)} (hp : F.Perm E) (hE : (E.map fun e => (e.src, e.dst)).Nodup) :
    SameWeights (buildGraph F) (buildGraph E) := by
  have hkeys : (E.map Edge.arc).map Prod.fst = E.map fun e => (e.src, e.dst) := by
    rw [List.map_map]
    rfl
  have hE' : ((E.map Edge.arc).map Prod.fst).Nodup := hkeys ▸ hE
  have hF' : ((F.map Edge.arc).map Prod.fst).Nodup := ((hp.map Edge.arc).map Prod.fst).nodup_iff.mpr hE'
  apply sameWeights_of_entries
  rw [buildGraph, buildGraph, OrderedMap.entries_ofList hE', OrderedMap.entries_ofList hF']
  exact hp.map Edge.arc

lemma ranked_perm {sc sc' : List (Pod × ℚ)} (hp : sc.Perm sc') (hnd : (sc.map Prod.snd).Nodup)
    (onsetS onsetS' : OrderedMap Pod ℚ) : (ranked sc onsetS).map (fun c => (c.pod, c.score)) =
      (ranked sc' onsetS').map fun c => (c.pod, c.score) := by
  have hdesc : ∀ (l : List (Pod × ℚ)) (o : OrderedMap Pod ℚ),
      (l.insertionSort fun a b => rankKey o a ≤ rankKey o b).Pairwise fun a b => b.2 ≤ a.2 := by
    intro l o
    have hs : (l.insertionSort fun a b => rankKey o a ≤ rankKey o b).Pairwise fun a b =>
        rankKey o a ≤ rankKey o b := by
      apply List.pairwise_insertionSort
    refine hs.imp ?_
    intro a b hab
    rcases Prod.Lex.toLex_le_toLex.mp hab with hlt | ⟨heq, -⟩
    · linarith
    · linarith
  have hsort : (sc.insertionSort fun a b => rankKey onsetS a ≤ rankKey onsetS b) =
      sc'.insertionSort fun a b => rankKey onsetS' a ≤ rankKey onsetS' b := by
    apply List.Perm.eq_of_pairwise ?_ (hdesc sc onsetS) (hdesc sc' onsetS')
    · exact ((List.perm_insertionSort _ sc).trans hp).trans (List.perm_insertionSort _ sc').symm
    · intro a b ha hb hba hab
      have ha' := (List.mem_insertionSort _).mp ha
      have hb' := hp.mem_iff.mpr ((List.mem_insertionSort _).mp hb)
      exact List.inj_on_of_nodup_map hnd ha' hb' (le_antisymm hab hba)
  simp only [ranked, hsort, (hp.map Prod.snd).sum_eq, List.map_map, Function.comp_def]

section BestWalks

variable (g : DiGraph Pod)

lemma impactSearch_stable (root : Pod) : ∃ n m, (∀ k, n ≤ k → (impactSearch g).loop k [(root, 1)] .empty = some m) ∧
    forwardImpact g root = m := by
  obtain ⟨m, hm⟩ := impactSearch_terminates g root
  exact ⟨walkFuel g, m, fun k hk => (impactSearch g).loop_mono hk hm, forwardImpact_eq g hm⟩

lemma forwardImpact_some (root n : Pod) (v : ℚ) : (forwardImpact g root).get? n = some v ↔
    IsGreatest {w | ∃ k, Route g root (k + 1) n w} v ∧ cut ≤ v := by
  rw [forwardImpact_greatest]
  constructor
  · rintro ⟨⟨hc, hv⟩, hmax⟩
    refine ⟨⟨hv, ?_⟩, hc⟩
    intro w hw
    by_cases hcw : cut ≤ w
    · exact hmax ⟨hcw, hw⟩
    · exact (not_le.mp hcw).le.trans hc
  · rintro ⟨⟨hv, hmax⟩, hc⟩
    exact ⟨⟨hc, hv⟩, fun w hw => hmax hw.2⟩

lemma forwardImpact_none (root n : Pod) : (forwardImpact g root).get? n = none ↔
    ∀ k w, Route g root (k + 1) n w → w < cut := by
  constructor
  · intro h k w hw
    by_contra hc
    obtain ⟨v, hv, -⟩ := forwardImpact_covers g hw (not_lt.mp hc)
    simp [h] at hv
  · intro h
    by_contra hn
    obtain ⟨v, hv⟩ := Option.ne_none_iff_exists'.mp hn
    obtain ⟨hc, k, hk⟩ := route_of_impact g hv
    exact (h k v hk).not_ge hc

/-- Whatever the cycles and the order of the arcs, the search ends, and with the best walk to each node. -/
theorem forwardImpact_best_walk (root : Pod) :
    (∃ n m, (∀ k, n ≤ k → (impactSearch g).loop k [(root, 1)] .empty = some m) ∧ forwardImpact g root = m) ∧
    (∀ n v, (forwardImpact g root).get? n = some v ↔
      IsGreatest {w | ∃ k, Route g root (k + 1) n w} v ∧ cut ≤ v) ∧
    (∀ n, (forwardImpact g root).get? n = none ↔ ∀ k w, Route g root (k + 1) n w → w < cut) ∧
    ∀ h : DiGraph Pod, h.entries.Perm g.entries →
      ∀ n, (forwardImpact h root).get? n = (forwardImpact g root).get? n := by
  refine ⟨impactSearch_stable g root, forwardImpact_some g root, forwardImpact_none g root, ?_⟩
  intro h hp
  exact OrderedMap.perm_iff_get?.mp ((sameWeights_of_entries hp).forwardImpact root)

def feedback : DiGraph String := buildGraph [⟨"loader", "database", .tenths 9, 5, [.stat, .pvc]⟩,
  ⟨"database", "loader", .tenths 8, 5, [.stat, .pvc]⟩, ⟨"loader", "loader", .tenths 10, 0, [.stat, .node]⟩]

theorem forwardImpact_best_walk_feedback :
    IsGreatest {w | ∃ k, Route feedback "loader" (k + 1) "loader" w} (7 / 10) ∧
    IsGreatest {w | ∃ k, Route feedback "loader" (k + 1) "database" w} (63 / 100) := by
  obtain ⟨-, hsome, -, -⟩ := forwardImpact_best_walk feedback "loader"
  have hl : (forwardImpact feedback "loader").get? "loader" = some (7 / 10) := by decide +kernel
  have hd : (forwardImpact feedback "loader").get? "database" = some (63 / 100) := by decide +kernel
  exact ⟨((hsome _ _).mp hl).1, ((hsome _ _).mp hd).1⟩

end BestWalks

end CausalEngine.Correlation
