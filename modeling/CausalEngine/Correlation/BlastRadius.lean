import CausalEngine.Correlation.SameWeights

/-! The blast radius against the impact search. A pod enters the blast radius with the first route that
meets it, and later routes are ignored; so its impact may fall short of the best one, and what lies
behind it may be cut off. Both searches agree where the routes with the fewest hops are the strongest. -/

namespace CausalEngine.Correlation

open Foundations DiGraph

variable {Pod : Type} [DecidableEq Pod] (g : DiGraph Pod) (root : Pod)

def StrongestFirst : Prop := ∀ n k w, Route g root k n w → cut ≤ w →
  (∀ j v, Route g root j n v → cut ≤ v → k ≤ j) → ∀ j v, Route g root j n v → cut ≤ v → v ≤ w

section Listed

variable {g root} {r : OrderedMap Pod (ℚ × ℤ)}

lemma root_first {n : ℕ} (h : (blastSearch g).loop n [(root, (1, 0))] (.ofList [(root, (1, 0))]) = some r) :
    r.entries = (root, (1, 0)) :: r.entries.tail := by
  suffices hs : ∃ rest, r.entries = (root, (1, 0)) :: rest by
    obtain ⟨rest, hr⟩ := hs
    rw [hr, List.tail_cons]
  apply (blastSearch g).loop_invariant (Q := fun _ => True)
    (P := fun m => ∃ rest, m.entries = (root, (1, 0)) :: rest) ?_ ⟨[], rfl⟩ (by simp) h
  rintro x m - ⟨rest, hm⟩ c - ha
  refine ⟨⟨OrderedMap.assign c.1 c.2 rest, ?_⟩, trivial⟩
  have hne : root ≠ c.1 := by
    rintro rfl
    apply (((blastSearch_firstVisit g).admits m c).mp ha).1
    simp [OrderedMap.keys, hm]
  simp only [OrderedMap.set, hm, OrderedMap.assign, if_neg hne]

lemma mem_blastRadius {b : Impact Pod}
    (h : (blastSearch g).loop (walkFuel g) [(root, (1, 0))] (.ofList [(root, (1, 0))]) = some r) :
    b ∈ blastRadius g root ↔ root ∈ nodes g ∧ b.pod ≠ root ∧ ∃ w, r.get? b.pod = some (w, b.etaS) ∧
      b.impact = roundTo 3 w := by
  have hfirst := root_first h
  have hnd := r.nodup
  rw [hfirst, List.map_cons, List.nodup_cons] at hnd
  have hget : ∀ n v, n ≠ root → (r.get? n = some v ↔ (n, v) ∈ r.entries.tail) := by
    intro n v hn
    rw [OrderedMap.get?_eq_some, hfirst, List.mem_cons, List.tail_cons]
    exact or_iff_right fun he => hn (Prod.mk.inj he).1
  rw [blastRadius]
  split_ifs with hroot
  · simp only [h, Option.getD_some, List.mem_insertionSort, List.mem_map, hroot, true_and]
    constructor
    · rintro ⟨⟨n, w, lag⟩, he, rfl⟩
      have hn : n ≠ root := by
        rintro rfl
        exact hnd.1 (List.mem_map.mpr ⟨_, he, rfl⟩)
      exact ⟨hn, w, (hget n _ hn).mpr he, rfl⟩
    · rintro ⟨hn, w, hw, hi⟩
      obtain ⟨pod, impact, etaS⟩ := b
      obtain rfl : impact = roundTo 3 w := hi
      exact ⟨(pod, (w, etaS)), (hget pod _ hn).mp hw, rfl⟩
  · simp [hroot]

lemma blastRadius_pods_nodup : ((blastRadius g root).map Impact.pod).Nodup := by
  rw [blastRadius]
  split_ifs
  · apply ((List.perm_insertionSort _ _).map Impact.pod).nodup_iff.mpr
    rw [List.map_map]
    exact (OrderedMap.nodup _).sublist ((List.tail_sublist _).map Prod.fst)
  · exact List.nodup_nil

lemma impact_of_listed {b : Impact Pod} (hb : b ∈ blastRadius g root) :
    b.pod ≠ root ∧ ∃ v, (forwardImpact g root).get? b.pod = some v ∧ b.impact ≤ roundTo 3 v := by
  obtain ⟨r, hr⟩ := blastSearch_terminates g root (.ofList [(root, (1, 0))])
  obtain ⟨-, hn, w, hw, hi⟩ := (mem_blastRadius hr).mp hb
  refine ⟨hn, ?_⟩
  rcases Search.loop_carried (fun c => cut ≤ c.2.1)
    (fun m c ha => (((blastSearch_firstVisit g).admits m c).mp ha).2) hr hw with hm | ⟨k, hk, hc⟩
  · have hmem := OrderedMap.mem_entries_ofList ((OrderedMap.get?_eq_some _ b.pod _).mp hm)
    exact (hn (Prod.mk.inj (List.mem_singleton.mp hmem)).1).elim
  · obtain ⟨v, hv, hle⟩ := forwardImpact_covers g (route_of_blast g hk) hc
    exact ⟨v, hv, hi ▸ roundTo_mono 3 hle⟩

lemma root_mem_nodes {n : Pod} {v : ℚ} (h : (forwardImpact g root).get? n = some v) : root ∈ nodes g := by
  by_contra hroot
  have hnil : outEdges g root = [] := by
    apply List.eq_nil_iff_forall_not_mem.mpr
    intro o ho
    exact hroot ((mem_nodes g).mpr ⟨_, List.mem_map_of_mem (f := Prod.fst) ((mem_outEdges g).mp ho), Or.inl rfl⟩)
  rw [impact_isolated g hnil] at h
  simp at h

variable (hfirst : StrongestFirst g root)
include hfirst

lemma shortestBest : (blastSearch g).ShortestBest Prod.fst (cut ≤ ·) (root, (1, 0)) := by
  intro k c hc j b hb hg
  refine hfirst c.1 k c.2.1 (route_of_blast g hc.carried) hc.admitted ?_ j b.1 (route_of_blast g hb) hg
  intro i v hv hcut
  obtain ⟨lag, hl⟩ := blast_of_route g hv
  exact hc.least i _ hl hcut

lemma listed_iff (n : Pod) (x : ℚ) : (∃ b ∈ blastRadius g root, b.pod = n ∧ b.impact = x) ↔
    n ≠ root ∧ ∃ v, (forwardImpact g root).get? n = some v ∧ x = roundTo 3 v := by
  obtain ⟨r, hr⟩ := blastSearch_terminates g root (.ofList [(root, (1, 0))])
  have hstart : cut ≤ (1 : ℚ) := by norm_num [cut]
  obtain ⟨hshort, hreach⟩ := (blastSearch_firstVisit g).shortest (shortestBest hfirst) hstart hr
  -- a recorded label is the product of a strongest route
  have hbest : ∀ b v, n ≠ root → r.get? n = some b → (forwardImpact g root).get? n = some v → b.1 = v := by
    intro b v hn hb hv
    obtain ⟨k, hk⟩ := hshort n b hb
    obtain ⟨hcut, j, hj⟩ := route_of_impact g hv
    obtain ⟨lag, hl⟩ := blast_of_route g hj
    have hle : v ≤ b.1 := shortestBest hfirst k _ hk _ _ hl hcut
    cases k with
    | zero =>
      cases hk.carried
      exact (hn rfl).elim
    | succ k =>
      obtain ⟨v', hv', hle'⟩ := forwardImpact_covers g (route_of_blast g hk.carried) hk.admitted
      rw [hv] at hv'
      obtain rfl := Option.some.inj hv'
      exact le_antisymm hle' hle
  constructor
  · rintro ⟨b, hb, rfl, rfl⟩
    obtain ⟨hn, v, hv, -⟩ := impact_of_listed hb
    obtain ⟨-, -, w, hw, hi⟩ := (mem_blastRadius hr).mp hb
    exact ⟨hn, v, hv, hi.trans (congrArg _ (hbest _ v hn hw hv))⟩
  · rintro ⟨hn, v, hv, rfl⟩
    obtain ⟨hcut, j, hj⟩ := route_of_impact g hv
    obtain ⟨lag, hl⟩ := blast_of_route g hj
    obtain ⟨⟨w, lag'⟩, hw⟩ := (r.mem_keys n).mp (hreach _ _ hl hcut)
    refine ⟨⟨n, roundTo 3 v, lag'⟩, (mem_blastRadius hr).mpr ⟨root_mem_nodes hv, hn, w, hw, ?_⟩, rfl, rfl⟩
    exact congrArg (roundTo 3) (hbest _ v hn hw hv).symm

end Listed

section Order

lemma StrongestFirst.congr {g h : DiGraph Pod} {root : Pod} (hw : SameWeights g h)
    (hfirst : StrongestFirst g root) : StrongestFirst h root := by
  simpa only [StrongestFirst, hw.route] using hfirst

lemma blastRadius_perm {g h : DiGraph Pod} {root : Pod} (hw : SameWeights g h) (hfirst : StrongestFirst h root) :
    ((blastRadius g root).map fun b => (b.pod, b.impact)).Perm
      ((blastRadius h root).map fun b => (b.pod, b.impact)) := by
  have hnd : ∀ g : DiGraph Pod, ((blastRadius g root).map fun b => (b.pod, b.impact)).Nodup := by
    intro g
    apply List.Nodup.of_map Prod.fst
    rw [List.map_map]
    exact blastRadius_pods_nodup
  apply (List.perm_ext_iff_of_nodup (hnd g) (hnd h)).mpr
  have hmem : ∀ g : DiGraph Pod, StrongestFirst g root → ∀ n x,
      (n, x) ∈ (blastRadius g root).map (fun b => (b.pod, b.impact)) ↔
        n ≠ root ∧ ∃ v, (forwardImpact g root).get? n = some v ∧ x = roundTo 3 v := by
    intro g hfirst n x
    simp only [← listed_iff hfirst, List.mem_map, Prod.mk.injEq]
  rintro ⟨n, x⟩
  have hf := hfirst.congr (fun k => (hw k).symm)
  rw [hmem g hf, hmem h hfirst, OrderedMap.perm_iff_get?.mp (hw.forwardImpact root) n]

lemma strongestFirst_of_forest {g : DiGraph Pod} {root : Pod} (hg : (g.keys.map Prod.snd).Nodup)
    (hroot : root ∉ g.keys.map Prod.snd) : StrongestFirst g root := by
  have hkey : ∀ {u v f}, factor g u v f → (u, v) ∈ g.keys := by
    rintro u v f ⟨a, ha, -⟩
    exact List.mem_map_of_mem (f := Prod.fst) ha
  suffices hs : ∀ n k w, Route g root k n w → ∀ j v, Route g root j n v → v = w from
    fun n k w hw _ _ j v hv _ => (hs n k w hw j v hv).le
  intro n k w hw
  induction hw with
  | start =>
    intro j v hv
    cases hv with
    | start => rfl
    | step _ ha => exact (hroot (List.mem_map_of_mem (f := Prod.snd) (hkey ha))).elim
  | @step k u n w f _ ha ih =>
    intro j v hv
    cases hv with
    | start => exact (hroot (List.mem_map_of_mem (f := Prod.snd) (hkey ha))).elim
    | @step j u' _ v f' hv ha' =>
      have hu := List.inj_on_of_nodup_map hg (hkey ha) (hkey ha') rfl
      obtain ⟨rfl, -⟩ := Prod.mk.inj hu
      obtain ⟨a, hmem, rfl⟩ := ha
      obtain ⟨a', hmem', rfl⟩ := ha'
      have hget := (g.get?_eq_some (u, n) a).mpr hmem
      rw [(g.get?_eq_some (u, n) a').mpr hmem'] at hget
      rw [ih j v hv, Option.some.inj hget]

end Order

/-- The pods listed are reached, with at most their best impact; where the strongest routes come first
they are all that is reached, with their best impact, in any order of the edges. -/
theorem blast_radius_agrees (E : List (Edge Pod)) (root : Pod) (hE : (E.map fun e => (e.src, e.dst)).Nodup) :
    (∀ b ∈ blastRadius (buildGraph E) root, b.pod ≠ root ∧
      ∃ v, (forwardImpact (buildGraph E) root).get? b.pod = some v ∧ b.impact ≤ roundTo 3 v) ∧
    (StrongestFirst (buildGraph E) root →
      (∀ n x, (∃ b ∈ blastRadius (buildGraph E) root, b.pod = n ∧ b.impact = x) ↔
        n ≠ root ∧ ∃ v, (forwardImpact (buildGraph E) root).get? n = some v ∧ x = roundTo 3 v) ∧
      ∀ F, F.Perm E → ((blastRadius (buildGraph F) root).map fun b => (b.pod, b.impact)).Perm
        ((blastRadius (buildGraph E) root).map fun b => (b.pod, b.impact))) := by
  refine ⟨fun b hb => impact_of_listed hb, ?_⟩
  intro hfirst
  exact ⟨listed_iff hfirst, fun F hF => blastRadius_perm (sameWeights_of_perm hF hE) hfirst⟩

def hop (src dst : String) (k : ℕ) : Edge String := ⟨src, dst, .tenths k, 5, [.stat, .pvc]⟩

def chain : List (Edge String) :=
  [hop "loader" "database" 9, hop "database" "reader" 8]

theorem blast_radius_agrees_chain : StrongestFirst (buildGraph chain) "loader" ∧
    ((∃ b ∈ blastRadius (buildGraph chain) "loader", b.pod = "reader" ∧ b.impact = 353 / 1000) ↔
      "reader" ≠ "loader" ∧
        ∃ v, (forwardImpact (buildGraph chain) "loader").get? "reader" = some v ∧ 353 / 1000 = roundTo 3 v) ∧
    ((blastRadius (buildGraph chain.reverse) "loader").map fun b => (b.pod, b.impact)).Perm
      ((blastRadius (buildGraph chain) "loader").map fun b => (b.pod, b.impact)) := by
  have hfirst : StrongestFirst (buildGraph chain) "loader" :=
    strongestFirst_of_forest (by decide +kernel) (by decide +kernel)
  obtain ⟨hlisted, hperm⟩ := (blast_radius_agrees chain "loader" (by decide)).2 hfirst
  exact ⟨hfirst, hlisted "reader" _, hperm _ (List.reverse_perm _)⟩

def detour : List (Edge String) :=
  [hop "loader" "database" 3, hop "loader" "broker" 10, hop "broker" "database" 10, hop "database" "reader" 5]

def diamond : List (Edge String) :=
  [hop "loader" "broker" 10, hop "loader" "cache" 5, hop "broker" "database" 10, hop "cache" "database" 10]

theorem blast_radius_differs :
    (detour.map fun e => (e.src, e.dst)).Nodup ∧ "reader" ∈ (forwardImpact (buildGraph detour) "loader").keys ∧
      (∀ b ∈ blastRadius (buildGraph detour) "loader", b.pod ≠ "reader") ∧
      (forwardImpact (buildGraph detour) "loader").get? "database" = some (49 / 100) ∧
      (∃ b ∈ blastRadius (buildGraph detour) "loader", b.pod = "database" ∧ b.impact = 21 / 100) ∧
    (diamond.map fun e => (e.src, e.dst)).Nodup ∧
      (∃ b ∈ blastRadius (buildGraph diamond) "loader", b.pod = "database" ∧ b.impact = 49 / 100) ∧
      ∃ b ∈ blastRadius (buildGraph diamond.reverse) "loader", b.pod = "database" ∧ b.impact = 245 / 1000 := by
  decide +kernel

end CausalEngine.Correlation
