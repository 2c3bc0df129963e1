import CausalEngine.Correlation.Renaming

/-! A stall that follows another one exactly. The correlator finds a perfect coefficient at the earliest lag that has
one, and the edge points from the pod that is followed. -/

namespace CausalEngine.Correlation

open Foundations

def Coef.one : Coef := ⟨1, by norm_num⟩

structure Stats.Exact (S : Stats) : Prop where
  pearson : ∀ a c e, 0 < c → 1 / 10 ^ 9 ≤ S.std a → S.pearsonr a (a.map fun v => c * v + e) = some Coef.one
  spearman : ∀ a c e, 0 < c → 1 / 10 ^ 9 ≤ S.std a → S.spearmanr a (a.map fun v => c * v + e) = some Coef.one

/-- `y` is an increasing linear image of what `x` was `lag` seconds before, and where they overlap both move. -/
structure Echoes (S : Stats) (lag : ℤ) (x y : Vec) : Prop where
  configured : lag ∈ lagsS
  sameLength : x.length = y.length
  long : lagSamples lag + 12 < x.length
  image : ∃ c e, 0 < c ∧ y.drop (lagSamples lag) = (x.take (x.length - lagSamples lag)).map fun v => c * v + e
  moves : 1 / 10 ^ 9 ≤ S.std ((znorm S x).take (x.length - lagSamples lag))
  follows : 1 / 10 ^ 9 ≤ S.std ((znorm S y).drop (lagSamples lag))

section Profile

variable {S : Stats} {x y : Vec} {lag : ℤ}

lemma znorm_eq (S : Stats) (x : Vec) : ∃ k m, 0 < k ∧ znorm S x = x.map fun v => (v - m) / k := by
  refine ⟨if 1 / 10 ^ 9 < S.std x then S.std x else 1, mean x, ?_, rfl⟩
  split_ifs with h
  · exact lt_trans (by norm_num) h
  · exact one_pos

lemma Echoes.normalised (h : Echoes S lag x y) : ∃ c e, 0 < c ∧ (znorm S y).drop (lagSamples lag) =
    ((znorm S x).take (x.length - lagSamples lag)).map fun v => c * v + e := by
  obtain ⟨c, e, hc, himage⟩ := h.image
  obtain ⟨k, m, hk, hx⟩ := znorm_eq S x
  obtain ⟨k', m', hk', hy⟩ := znorm_eq S y
  refine ⟨c * k / k', (c * m + e - m') / k', by positivity, ?_⟩
  rw [hx, hy, ← List.map_drop, himage, ← List.map_take, List.map_map, List.map_map]
  apply List.map_congr_left
  intro v _
  simp only [Function.comp_apply]
  field_simp
  ring

lemma Echoes.corr (h : Echoes S lag x y) (hS : S.Exact) :
    corrAtLag S (znorm S x) (znorm S y) (lagSamples lag) = Coef.one := by
  obtain ⟨c, e, hc, himage⟩ := h.normalised
  have hlen : (znorm S x).length = x.length := List.length_map _
  have hlong := h.long
  have hok : ¬ (((znorm S x).take (x.length - lagSamples lag)).length < 12 ∨
      S.std ((znorm S x).take (x.length - lagSamples lag)) < 1 / 10 ^ 9 ∨
      S.std ((znorm S y).drop (lagSamples lag)) < 1 / 10 ^ 9) := by
    rw [not_or, not_or, not_lt, not_lt, not_lt, List.length_take, hlen]
    exact ⟨by omega, h.moves, h.follows⟩
  simp only [corrAtLag, hlen]
  rw [if_neg hok, himage, hS.pearson _ c e hc h.moves, hS.spearman _ c e hc h.moves]
  split_ifs <;> rfl

lemma lagProfile_entries (S : Stats) (x y : Vec) : (lagProfile S x y).entries =
    (lagsS.filter fun lag => lagSamples lag + 12 < x.length).map fun lag =>
      (lag, corrAtLag S (znorm S x) (znorm S y) (lagSamples lag)) := by
  apply OrderedMap.entries_ofList
  rw [List.map_map]
  exact (List.Nodup.filter _ (by decide : lagsS.Nodup)).map fun _ _ h => h

lemma lagProfile_sorted (S : Stats) (x y : Vec) : (lagProfile S x y).entries.Pairwise fun a b => a.1 < b.1 := by
  rw [lagProfile_entries, List.pairwise_map]
  exact List.Pairwise.filter _ (by decide : lagsS.Pairwise (· < ·))

lemma le_of_idxOf {α : Type} [DecidableEq α] {f : α → ℤ} {l : List α} (hl : l.Pairwise fun a b => f a < f b) {a b : α}
    (ha : a ∈ l) (hb : b ∈ l) (h : l.idxOf a ≤ l.idxOf b) : f a ≤ f b := by
  rcases h.eq_or_lt with h | h
  · rw [(List.idxOf_inj ha).mp h]
  · have hlt := List.pairwise_iff_getElem.mp hl _ _ (List.idxOf_lt_length_of_mem ha)
      (List.idxOf_lt_length_of_mem hb) h
    rw [List.getElem_idxOf, List.getElem_idxOf] at hlt
    exact hlt.le

lemma peakAbs_perfect {p : Profile} (hp : p.entries.Pairwise fun a b => a.1 < b.1) {e : ℤ × Coef} (he : e ∈ p.entries)
    (hone : |e.2.val| = 1) : |(peakAbs p).2.val| = 1 ∧ (peakAbs p).1 ≤ e.1 := by
  cases hpeak : p.entries.argmax fun e => |e.2.val| with
  | none => simp [List.argmax_eq_none.mp hpeak] at he
  | some m =>
    have hle := List.le_of_mem_argmax (f := fun e : ℤ × Coef => |e.2.val|) he hpeak
    have hm : |m.2.val| = 1 := le_antisymm m.2.property (by simpa only [hone] using hle)
    rw [peakAbs, hpeak, Option.getD_some]
    exact ⟨hm, le_of_idxOf hp (List.argmax_mem hpeak) he (List.index_of_argmax hpeak he (hm.trans hone.symm).le)⟩

lemma Echoes.peak (h : Echoes S lag x y) (hS : S.Exact) :
    |(peaks S x y).1.2.val| = 1 ∧ (peaks S x y).1.1 ≤ lag := by
  have htake : ∀ z : Vec, z.length = x.length → takeLast (min x.length y.length) z = z := by
    intro z hz
    rw [← h.sameLength, min_self, takeLast]
    split_ifs
    · rfl
    · rw [hz, Nat.sub_self, List.drop_zero]
  have hmem : (lag, Coef.one) ∈ (lagProfile S x y).entries := by
    rw [lagProfile_entries, List.mem_map]
    exact ⟨lag, List.mem_filter.mpr ⟨h.configured, by simpa using h.long⟩, by rw [h.corr hS]⟩
  simp only [peaks, htake x rfl, htake y h.sameLength.symm]
  exact peakAbs_perfect (lagProfile_sorted S x y) hmem (by norm_num [Coef.one])

lemma Echoes.forward (h : Echoes S lag x y) (hS : S.Exact) : (bestDirected S x y).forward = true ∧
    |(bestDirected S x y).r.val| = 1 ∧ (bestDirected S x y).lagS ≤ lag := by
  obtain ⟨hone, hlag⟩ := h.peak hS
  have hrev := (peaks S x y).2.2.property
  simp only [peaks] at hone hlag hrev
  simp only [bestDirected]
  rw [if_neg (by rw [hone]; linarith)]
  exact ⟨rfl, hone, hlag⟩

end Profile

variable {Pod : Type} [LinearOrder Pod]

/-- Where the stall of `q` echoes that of `p`, an edge between the two points from `p` to `q` with coefficient one and
a lag that is not longer than the echo's, unless the opposite direction fits as well and `q` comes first. -/
theorem echo_points (S : Stats) (hS : S.Exact) (i : PassInput Pod) (p q : Pod) (lag : ℤ)
    (h : Echoes S lag (i.cvec p) (i.cvec q)) (hdir : p < q ∨ ¬ tied S (i.cvec p) (i.cvec q)) :
    ∀ e ∈ i.psiEdges S, e.pair = s(p, q) → e.src = p ∧ e.dst = q ∧ e.r.val = 1 ∧ e.lagS ≤ lag := by
  intro e he hpair
  obtain ⟨hforward, hone, hlag⟩ := h.forward hS
  obtain ⟨a, b, -, -, hab, hedge⟩ := (i.mem_psiEdges S).mp he
  have haccept : acceptEdge p q (bestDirected S (i.cvec p) (i.cvec q)).r (bestDirected S (i.cvec p) (i.cvec q)).lagS
      (bestDirected S (i.cvec p) (i.cvec q)).profile i.witness i.onsetS = some e := by
    rw [i.psiEdge_pair S hedge, Sym2.eq_iff] at hpair
    simp only [PassInput.psiEdge] at hedge
    rcases hpair with ⟨rfl, rfl⟩ | ⟨rfl, rfl⟩
    · simp only [hforward, if_true] at hedge
      split_ifs at hedge
      exact hedge
    · have hfree := hdir.resolve_left hab.not_gt
      simp only [bestDirected_swap S hfree, hforward, Bool.not_true, Bool.false_eq_true, if_false] at hedge
      split_ifs at hedge
      exact hedge
  obtain ⟨hpos, -, -, rfl⟩ := acceptEdge_spec haccept
  have hr : (bestDirected S (i.cvec p) (i.cvec q)).r.val = 1 := by
    rw [abs_of_nonneg (le_trans (by norm_num [rPeak]) hpos)] at hone
    exact hone
  refine ⟨rfl, rfl, ?_, hlag⟩
  simp only [Coef.round, hr]
  norm_num [roundTo, roundHalfEven]

section Moments

/-- The statistics of the moments, with a coefficient of one where the signals are images or have the same ranks. -/
def exactStats : Stats where
  std := momentStats.std
  skew := momentStats.skew
  pearsonr a b :=
    if 0 < covariance a b ∧ covariance a b ^ 2 = moment 2 a * moment 2 b then some Coef.one else pearson a b
  spearmanr a b := if ranks a = ranks b then some Coef.one else pearson (ranks a) (ranks b)

lemma centred_image (c e : ℚ) (a : Vec) : centred (a.map fun v => c * v + e) = (centred a).map (c * ·) := by
  cases ha : a with
  | nil => rfl
  | cons u l =>
    have hlen : (a.length : ℚ) ≠ 0 := by
      rw [ha]
      exact_mod_cast Nat.succ_ne_zero l.length
    have hmean : mean (a.map fun v => c * v + e) = c * mean a + e := by
      rw [mean, mean, List.length_map, List.sum_map_add, List.sum_map_mul_left, List.map_id', List.map_const',
        List.sum_replicate, nsmul_eq_mul]
      field_simp
    rw [← ha]
    simp only [centred, hmean, List.map_map]
    apply List.map_congr_left
    intro v _
    simp only [Function.comp_apply]
    ring

lemma mean_times (c : ℚ) (x : Vec) : mean (x.map (c * ·)) = c * mean x := by
  rw [mean, mean, List.length_map, List.sum_map_mul_left, List.map_id', mul_div_assoc]

lemma covariance_image (c e : ℚ) (a : Vec) : covariance a (a.map fun v => c * v + e) = c * moment 2 a := by
  rw [covariance, centred_image, List.zipWith_map_right, List.zipWith_self, moment, ← mean_times, List.map_map]
  congr 1
  apply List.map_congr_left
  intro v _
  simp only [Function.comp_apply]
  ring

lemma moment_image (c e : ℚ) (a : Vec) : moment 2 (a.map fun v => c * v + e) = c ^ 2 * moment 2 a := by
  rw [moment, centred_image, moment, ← mean_times, List.map_map, List.map_map]
  congr 1
  apply List.map_congr_left
  intro v _
  simp only [Function.comp_apply]
  ring

lemma moment_pos {a : Vec} (h : 1 / 10 ^ 9 ≤ exactStats.std a) : 0 < moment 2 a := by
  have hnonneg : 0 ≤ moment 2 a := by
    apply div_nonneg _ (Nat.cast_nonneg _)
    apply List.sum_nonneg
    simp only [List.mem_map, forall_exists_index, and_imp, forall_apply_eq_imp_iff₂]
    exact fun v _ => sq_nonneg v
  refine hnonneg.lt_of_ne fun hzero => ?_
  have hstd : exactStats.std a = sqrtDown (moment 2 a) := rfl
  rw [hstd, ← hzero] at h
  exact absurd h (by decide +kernel)

lemma ranks_image {c : ℚ} (hc : 0 < c) (e : ℚ) (a : Vec) : ranks (a.map fun v => c * v + e) = ranks a := by
  have hinj : Function.Injective fun v : ℚ => c * v + e := fun u v h => by simpa [hc.ne'] using h
  rw [ranks, ranks, List.map_map]
  apply List.map_congr_left
  intro v _
  have hbelow : (a.map fun v => c * v + e).countP (· < c * v + e) = a.countP (· < v) := by
    rw [List.countP_map]
    apply List.countP_congr
    intro u _
    simp [hc]
  simp only [Function.comp_apply, hbelow, List.count_map_of_injective a _ hinj]

lemma exactStats_exact : exactStats.Exact where
  pearson a c e hc h := by
    have hpos := moment_pos h
    refine if_pos ⟨?_, ?_⟩
    · rw [covariance_image]
      positivity
    · rw [covariance_image, moment_image]
      ring
  spearman a c e hc _ := if_pos (ranks_image hc e a).symm

def pulse : Vec :=
  [0, 1, 0, 1, 0, 1, 0, 1, 0, 1, 0, 1, 0, 1, 0, 30, 32, 31, 33, 32, 31, 33, 32, 31, 30, 29, 31, 30, 32, 31]

def echoInput : PassInput String where
  vectors := .ofList [("dcim-bridge", 3 :: (pulse.take 29).map fun v => 2 * v + 1), ("timescaledb", pulse)]
  witness := ⟨[], [], [s("dcim-bridge", "timescaledb")], []⟩
  sloBreach := []
  caps := .empty
  window := none
  writeVectors := .empty
  baselines := none
  recent := none

theorem echo_points_pulse : ∃ e ∈ echoInput.psiEdges exactStats, e.src = "timescaledb" ∧ e.dst = "dcim-bridge" ∧
    e.r.val = 1 ∧ e.lagS ≤ 5 := by
  have hecho : Echoes exactStats 5 (echoInput.cvec "timescaledb") (echoInput.cvec "dcim-bridge") :=
    ⟨by decide, by decide +kernel, by decide +kernel, ⟨2, 1, by norm_num, by decide +kernel⟩, by decide +kernel,
      by decide +kernel⟩
  have htied : ¬ tied exactStats (echoInput.cvec "timescaledb") (echoInput.cvec "dcim-bridge") := by
    rw [tied, not_le]
    decide +kernel
  have hall := echo_points exactStats exactStats_exact echoInput "timescaledb" "dcim-bridge" 5 hecho (Or.inr htied)
  have hone : (echoInput.psiEdges exactStats).map Edge.pair = [s("timescaledb", "dcim-bridge")] := by
    decide +kernel
  obtain ⟨e, he, hpair⟩ := List.mem_map.mp (hone ▸ List.mem_singleton_self _ :
    s("timescaledb", "dcim-bridge") ∈ (echoInput.psiEdges exactStats).map Edge.pair)
  exact ⟨e, he, hall e he hpair⟩

end Moments

end CausalEngine.Correlation
