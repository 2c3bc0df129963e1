import CausalEngine.Correlation.Detectors
import CausalEngine.Foundations.ClampedSums

/-! The alarm loop of the change-point detection, one sample at a time. Both gauges start again at zero after an
alarm, so they never exceed the clamped sums of the whole series since the warm-up. -/

namespace CausalEngine.Correlation

open Foundations

def Direction.sgn : Direction → ℚ
  | .up => 1
  | .down => -1

namespace Cusum

variable (k h : ℚ) (z : Vec)

def drift (d : Direction) (i : ℕ) : ℚ := d.sgn * z.getD i 0 - k

def gauge (s : Cusum) : Direction → ℚ
  | .up => s.gp
  | .down => s.gn

def next (s : Cusum) (i : ℕ) (d : Direction) : ℚ := max 0 (s.gauge d + drift k z d i)

def Alarms (s : Cusum) (i : ℕ) (d : Direction) : Prop :=
  s.armedAt ≤ i ∧ h < s.next k z i d ∧ (d = .down → s.next k z i .up ≤ h)

lemma step_eq (s : Cusum) (i : ℕ) : s.step k h z i =
    if h < s.next k z i .up ∧ s.armedAt ≤ i then s.alarm z i .up Direction.up.sgn
    else if h < s.next k z i .down ∧ s.armedAt ≤ i then s.alarm z i .down Direction.down.sgn
    else { s with gp := s.next k z i .up, gn := s.next k z i .down } := by
  have hup : s.next k z i .up = max 0 (s.gp + z.getD i 0 - k) := by
    rw [next, gauge, drift, Direction.sgn, one_mul, add_sub_assoc]
  have hdown : s.next k z i .down = max 0 (s.gn - z.getD i 0 - k) := by
    rw [next, gauge, drift, Direction.sgn]
    congr 1
    ring
  rw [hup, hdown]
  rfl

variable {k h z} {s : Cusum} {i : ℕ}

lemma step_alarm {d : Direction} (ha : s.Alarms k h z i d) : s.step k h z i = s.alarm z i d d.sgn := by
  obtain ⟨harmed, hlt, hup⟩ := ha
  rw [step_eq]
  cases d with
  | up => exact if_pos ⟨hlt, harmed⟩
  | down => rw [if_neg fun hc => not_lt.mpr (hup rfl) hc.1, if_pos ⟨hlt, harmed⟩]

lemma step_quiet (hq : ∀ d, ¬ s.Alarms k h z i d) :
    s.step k h z i = { s with gp := s.next k z i .up, gn := s.next k z i .down } := by
  have hup : ¬ (h < s.next k z i .up ∧ s.armedAt ≤ i) := fun hc => hq .up ⟨hc.2, hc.1, by simp⟩
  have hdown : ¬ (h < s.next k z i .down ∧ s.armedAt ≤ i) := by
    rintro ⟨hlt, harmed⟩
    exact hq .down ⟨harmed, hlt, fun _ => not_lt.mp fun hc => hup ⟨hc, harmed⟩⟩
  rw [step_eq, if_neg hup, if_neg hdown]

lemma step_cases (k h : ℚ) (z : Vec) (s : Cusum) (i : ℕ) :
    (∃ d, s.Alarms k h z i d ∧ s.step k h z i = s.alarm z i d d.sgn) ∨
      (∀ d, ¬ s.Alarms k h z i d) ∧ s.step k h z i = { s with gp := s.next k z i .up, gn := s.next k z i .down } := by
  by_cases ha : ∃ d, s.Alarms k h z i d
  · obtain ⟨d, hd⟩ := ha
    exact Or.inl ⟨d, hd, step_alarm hd⟩
  · have hq : ∀ d, ¬ s.Alarms k h z i d := fun d hd => ha ⟨d, hd⟩
    exact Or.inr ⟨hq, step_quiet hq⟩

end Cusum

section Run

variable (k h : ℚ) (warmup : ℕ) (z : Vec)

def cusumBefore (i : ℕ) : Cusum :=
  (List.range' warmup (i - warmup)).foldl (Cusum.step k h z) ⟨0, 0, warmup, []⟩

variable {k h warmup z}

lemma cusumBefore_start : cusumBefore k h warmup z warmup = ⟨0, 0, warmup, []⟩ := by
  simp [cusumBefore]

lemma cusumBefore_succ {i : ℕ} (hi : warmup ≤ i) :
    cusumBefore k h warmup z (i + 1) = (cusumBefore k h warmup z i).step k h z i := by
  have hsucc : i + 1 - warmup = i - warmup + 1 := by omega
  have hlast : warmup + 1 * (i - warmup) = i := by omega
  rw [cusumBefore, hsucc, List.range'_concat, hlast, List.foldl_append]
  rfl

lemma ewmaFrom_length (alpha prev : ℚ) (x : Vec) : (ewmaFrom alpha prev x).length = x.length := by
  induction x generalizing prev with
  | nil => rfl
  | cons v x ih => rw [ewmaFrom, List.length_cons, List.length_cons, ih]

lemma zscores_length (x : Vec) : (zscores warmup x).length = x.length := by
  cases x with
  | nil => rfl
  | cons v x =>
    simp only [zscores, ewma, List.length_map, List.length_zipWith, List.length_append, List.length_take,
      List.length_dropLast, List.length_cons, ewmaFrom_length]
    omega

lemma cusumOnsets_eq {x : Vec} (hx : warmup + 4 ≤ x.length) : cusumOnsetsWith k h warmup x =
    (cusumBefore k h warmup (zscores warmup x) x.length).onsets := by
  rw [cusumOnsetsWith, if_neg (by omega)]
  dsimp only
  rw [zscores_length]
  rfl

lemma cusumOnsets_short {x : Vec} (hx : x.length < warmup + 4) : cusumOnsetsWith k h warmup x = [] := if_pos hx

lemma onsets_prefix {i j : ℕ} (hi : warmup ≤ i) (hij : i ≤ j) :
    (cusumBefore k h warmup z i).onsets <+: (cusumBefore k h warmup z j).onsets := by
  induction j, hij using Nat.le_induction with
  | base => exact List.prefix_refl _
  | succ j hj ih =>
    refine ih.trans ?_
    rw [cusumBefore_succ (hi.trans hj)]
    rcases Cusum.step_cases k h z (cusumBefore k h warmup z j) j with ⟨d, -, hs⟩ | ⟨-, hs⟩
    · rw [hs]
      exact List.prefix_append _ _
    · rw [hs]

end Run

section Backtrack

variable {z : Vec} {sgn : ℚ}

lemma backtrack_le (i : ℕ) : backtrack z sgn i ≤ i := by
  induction i with
  | zero => exact le_rfl
  | succ i ih =>
    rw [backtrack]
    split_ifs
    · exact ih.trans (Nat.le_succ i)
    · exact le_rfl

lemma backtrack_le_iff {m i : ℕ} (hm : m ≤ i) :
    backtrack z sgn i ≤ m ↔ ∀ l, m ≤ l → l < i → 1 / 2 < sgn * z.getD l 0 := by
  induction i with
  | zero =>
    obtain rfl := Nat.le_zero.mp hm
    simp [backtrack]
  | succ i ih =>
    rcases hm.eq_or_lt with rfl | hlt
    · exact iff_of_true (backtrack_le _) fun l hl hl' => absurd hl' (not_lt.mpr hl)
    have hmi := Nat.lt_succ_iff.mp hlt
    rw [backtrack]
    split_ifs with hz
    · rw [ih hmi]
      constructor
      · intro h l hl hl'
        rcases (Nat.lt_succ_iff.mp hl').eq_or_lt with rfl | hli
        · exact hz
        · exact h l hl hli
      · exact fun h l hl hl' => h l hl (hl'.trans (Nat.lt_succ_self i))
    · exact iff_of_false (by omega) fun h => hz (h i hmi (Nat.lt_succ_self i))

end Backtrack

section Gauges

variable {k h : ℚ} {warmup : ℕ} {z : Vec}

lemma Cusum.gauge_quiet (s : Cusum) (i : ℕ) (d : Direction) :
    ({ s with gp := s.next k z i .up, gn := s.next k z i .down } : Cusum).gauge d = s.next k z i d := by
  cases d <;> rfl

lemma Cusum.gauge_alarm (s : Cusum) (i : ℕ) (d e : Direction) (sgn : ℚ) : (s.alarm z i d sgn).gauge e = 0 := by
  cases e <;> rfl

structure Bounded (k h : ℚ) (warmup : ℕ) (z : Vec) (i : ℕ) (s : Cusum) : Prop where
  gauge : ∀ d, s.gauge d ≤ clamped (Cusum.drift k z d) warmup i
  onset : ∀ o ∈ s.onsets, ∃ n, warmup ≤ n ∧ n < i ∧ h < clamped (Cusum.drift k z o.direction) warmup (n + 1) ∧
    o.idx = backtrack z o.direction.sgn n

lemma bounded_run {i : ℕ} (hi : warmup ≤ i) : Bounded k h warmup z i (cusumBefore k h warmup z i) := by
  induction i, hi using Nat.le_induction with
  | base =>
    rw [cusumBefore_start]
    exact ⟨fun d => by cases d <;> exact clamped_nonneg _, by simp⟩
  | succ i hi ih =>
    have hnext : ∀ d, (cusumBefore k h warmup z i).next k z i d ≤ clamped (Cusum.drift k z d) warmup (i + 1) := by
      intro d
      rw [Cusum.next, clamped_succ hi]
      exact max_le_max le_rfl (add_le_add_left (ih.gauge d) _)
    have hkept : ∀ o ∈ (cusumBefore k h warmup z i).onsets, ∃ n, warmup ≤ n ∧ n < i + 1 ∧
        h < clamped (Cusum.drift k z o.direction) warmup (n + 1) ∧ o.idx = backtrack z o.direction.sgn n := by
      intro o ho
      obtain ⟨n, hn, hni, hlt, hidx⟩ := ih.onset o ho
      exact ⟨n, hn, hni.trans (Nat.lt_succ_self i), hlt, hidx⟩
    rw [cusumBefore_succ hi]
    rcases Cusum.step_cases k h z (cusumBefore k h warmup z i) i with ⟨d, ha, hs⟩ | ⟨-, hs⟩
    · rw [hs]
      refine ⟨fun e => by rw [Cusum.gauge_alarm]; exact clamped_nonneg _, ?_⟩
      intro o ho
      rcases List.mem_append.mp ho with ho | ho
      · exact hkept o ho
      · obtain rfl := List.mem_singleton.mp ho
        exact ⟨i, hi, Nat.lt_succ_self i, ha.2.1.trans_le (hnext d), rfl⟩
    · rw [hs]
      exact ⟨fun d => by rw [Cusum.gauge_quiet]; exact hnext d, hkept⟩

end Gauges

end CausalEngine.Correlation
