import CausalEngine.Correlation.AlarmLoop

/-! Onsets in the warm-up. No alarm is raised there, but the start that is reported for an alarm is found by
walking back over the residuals, and the walk does not stop where the warm-up ends. -/

namespace CausalEngine.Correlation

open Foundations Finset

def Direction.other : Direction → Direction
  | .up => .down
  | .down => .up

def Beyond (z : Vec) (d : Direction) (l : ℕ) : Prop := 1 / 2 < d.sgn * z.getD l 0

instance (z : Vec) (d : Direction) (l : ℕ) : Decidable (Beyond z d l) := inferInstanceAs (Decidable (_ < _))

variable {k h : ℚ} {warmup : ℕ} {z : Vec} {d : Direction}

lemma Direction.sgn_other (d : Direction) : d.other.sgn = -d.sgn := by
  cases d <;> simp [Direction.other, Direction.sgn]

lemma Direction.eq_or_other (d e : Direction) : e = d ∨ e = d.other := by
  cases d <;> cases e <;> simp [Direction.other]

section Rising

/-- The gauge of one direction has followed the samples from the warm-up on, the other one has stayed at zero. -/
structure Rising (k : ℚ) (warmup : ℕ) (z : Vec) (d : Direction) (i : ℕ) (s : Cusum) : Prop where
  armedAt : s.armedAt = warmup
  onsets : s.onsets = []
  gauge : s.gauge d = clamped (Cusum.drift k z d) warmup i
  other : s.gauge d.other = 0

lemma Rising.next_other {i : ℕ} {s : Cusum} (hs : Rising k warmup z d i s) (hk : 0 < k) (hz : 0 ≤ d.sgn * z.getD i 0) :
    s.next k z i d.other = 0 := by
  rw [Cusum.next, hs.other, Cusum.drift, Direction.sgn_other]
  apply max_eq_left
  linarith

lemma Rising.next_self {i : ℕ} {s : Cusum} (hs : Rising k warmup z d i s) (hi : warmup ≤ i) :
    s.next k z i d = clamped (Cusum.drift k z d) warmup (i + 1) := by
  rw [Cusum.next, hs.gauge, clamped_succ hi]

variable (hk : 0 < k) (hh : 0 < h)
include hk hh

lemma rising_run {n : ℕ} (hn : warmup ≤ n) (hbeyond : ∀ l, warmup ≤ l → l < n → Beyond z d l)
    (hlow : ∀ l, warmup ≤ l → l ≤ n → clamped (Cusum.drift k z d) warmup l ≤ h) :
    Rising k warmup z d n (cusumBefore k h warmup z n) := by
  induction n, hn using Nat.le_induction with
  | base =>
    rw [cusumBefore_start]
    exact ⟨rfl, rfl, by cases d <;> exact clamped_start.symm, by cases d <;> rfl⟩
  | succ n hn ih =>
    have hs := ih (fun l hl hl' => hbeyond l hl (by omega)) fun l hl hl' => hlow l hl (by omega)
    have hz : 0 ≤ d.sgn * z.getD n 0 := le_trans (by norm_num) (hbeyond n hn (Nat.lt_succ_self n)).le
    have hself := hs.next_self hn
    have hother := hs.next_other hk hz
    -- neither gauge passes the threshold
    have hquiet : ∀ e, ¬ (cusumBefore k h warmup z n).Alarms k h z n e := by
      intro e ha
      rcases Direction.eq_or_other d e with rfl | rfl
      · exact absurd (hself ▸ ha.2.1) (not_lt.mpr (hlow (n + 1) (by omega) le_rfl))
      · exact absurd (hother ▸ ha.2.1) (not_lt.mpr hh.le)
    rw [cusumBefore_succ hn, Cusum.step_quiet hquiet]
    exact ⟨hs.armedAt, hs.onsets, by rw [Cusum.gauge_quiet, hself], by rw [Cusum.gauge_quiet, hother]⟩

lemma rising_alarm {n : ℕ} (hn : warmup ≤ n) (hbeyond : ∀ l, warmup ≤ l → l < n → Beyond z d l)
    (hlow : ∀ l, warmup ≤ l → l ≤ n → clamped (Cusum.drift k z d) warmup l ≤ h)
    (hhigh : h < clamped (Cusum.drift k z d) warmup (n + 1)) :
    (cusumBefore k h warmup z (n + 1)).onsets = [⟨backtrack z d.sgn n, d, z.getD n 0⟩] := by
  have hs := rising_run hk hh hn hbeyond hlow
  have hdrift : 0 < Cusum.drift k z d n := by
    rw [clamped_succ hn] at hhigh
    have hsum : h < clamped (Cusum.drift k z d) warmup n + Cusum.drift k z d n :=
      (lt_max_iff.mp hhigh).resolve_left (not_lt.mpr hh.le)
    have hle := hlow n hn le_rfl
    linarith
  have hz : 0 ≤ d.sgn * z.getD n 0 := by
    rw [Cusum.drift] at hdrift
    linarith
  have halarm : (cusumBefore k h warmup z n).Alarms k h z n d := by
    refine ⟨hs.armedAt.trans_le hn, by rwa [hs.next_self hn], ?_⟩
    rintro rfl
    exact (hs.next_other hk hz).trans_le hh.le
  rw [cusumBefore_succ hn, Cusum.step_alarm halarm, Cusum.alarm, hs.onsets]
  rfl

end Rising

section Early

variable {x : Vec}

def RunsOver (k h : ℚ) (warmup : ℕ) (z : Vec) (d : Direction) (j n : ℕ) : Prop :=
  warmup ≤ j ∧ j ≤ n ∧ (∀ l, warmup - 1 ≤ l → l < n → Beyond z d l) ∧ h < ∑ l ∈ Ico j (n + 1), (d.sgn * z.getD l 0 - k)

lemma early_of_runsOver (hk : 0 < k) (hh : 0 < h) (hw : 1 ≤ warmup) (hx : warmup + 4 ≤ x.length) {j n : ℕ}
    (hn : n < x.length) (hr : RunsOver k h warmup (zscores warmup x) d j n) :
    ∃ o ∈ cusumOnsetsWith k h warmup x, o.idx < warmup := by
  obtain ⟨hwj, hjn, hbeyond, hsum⟩ := hr
  set z := zscores warmup x
  have hex : ∃ m, warmup ≤ m ∧ m ≤ n ∧ h < clamped (Cusum.drift k z d) warmup (m + 1) :=
    ⟨n, hwj.trans hjn, le_rfl, hsum.trans_le (sum_le_clamped hwj (by omega))⟩
  have hfind := Nat.find_spec hex
  set m := Nat.find hex
  obtain ⟨hwm, hmn, hhigh⟩ := hfind
  have hlow : ∀ l, warmup ≤ l → l ≤ m → clamped (Cusum.drift k z d) warmup l ≤ h := by
    intro l hl hlm
    rcases hl.eq_or_lt with rfl | hlt
    · rw [clamped_start]
      exact hh.le
    obtain ⟨l, rfl⟩ : ∃ l', l = l' + 1 := ⟨l - 1, by omega⟩
    have hnot := Nat.find_min hex (Nat.lt_of_succ_le hlm)
    exact not_lt.mp fun hc => hnot ⟨by omega, by omega, hc⟩
  have honsets := rising_alarm hk hh hwm (fun l hl hl' => hbeyond l (by omega) (by omega)) hlow hhigh
  have hpre := onsets_prefix (k := k) (h := h) (z := z) (by omega : warmup ≤ m + 1) (by omega : m + 1 ≤ x.length)
  rw [← cusumOnsets_eq hx, honsets] at hpre
  refine ⟨_, hpre.subset (List.mem_singleton_self _), ?_⟩
  have hback : backtrack z d.sgn m ≤ warmup - 1 :=
    (backtrack_le_iff (by omega)).mpr fun l hl hl' => hbeyond l hl (by omega)
  exact lt_of_le_of_lt hback (by omega)

lemma runsOver_of_early (hh : 0 < h) (hx : warmup + 4 ≤ x.length) {o : Onset}
    (ho : o ∈ cusumOnsetsWith k h warmup x) (hidx : o.idx < warmup) :
    ∃ j n, n < x.length ∧ RunsOver k h warmup (zscores warmup x) o.direction j n := by
  rw [cusumOnsets_eq hx] at ho
  obtain ⟨n, hwn, hn, hhigh, hback⟩ := (bounded_run (by omega)).onset o ho
  obtain ⟨j, hwj, hjn, hsum⟩ := (lt_clamped_iff (by omega)).mp hhigh
  have hne : j ≠ n + 1 := by
    rintro rfl
    rw [Ico_self, sum_empty] at hsum
    exact absurd hsum (not_lt.mpr hh.le)
  rw [hback] at hidx
  have hrun := (backtrack_le_iff (by omega : warmup - 1 ≤ n)).mp (Nat.le_sub_one_of_lt hidx)
  exact ⟨j, n, hn, hwj, by omega, hrun, hsum⟩

end Early

def stepSeries (n t : ℕ) (c L : ℚ) : Vec := (List.range n).map fun i => if i < t then c else c + L

end CausalEngine.Correlation
