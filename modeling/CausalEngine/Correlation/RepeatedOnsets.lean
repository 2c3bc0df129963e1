import CausalEngine.Correlation.WarmUp
import CausalEngine.Foundations.Selection

/-! One disturbance, several onsets. After an alarm the loop is armed again three samples later, while the same
run of residuals may still go on; the walk back from the next alarm then passes the last one. The alarms are
described on the residuals alone: each is the first sample that closes a window of samples since the last alarm
which exceeds the allowance by more than the threshold. -/

namespace CausalEngine.Correlation

open Foundations Finset

section Windows

variable (k h : ℚ) (z : Vec)

/-- Some window of samples from `m` on that ends at `i` exceeds the allowance by more than the threshold. -/
def Over (m i : ℕ) (d : Direction) : Prop :=
  ∃ j, m ≤ j ∧ j ≤ i + 1 ∧ h < ∑ l ∈ Ico j (i + 1), (d.sgn * z.getD l 0 - k)

/-- Of the samples from `p` on, `i` is the first that ends such a window. -/
structure FirstOver (m p i : ℕ) (d : Direction) : Prop where
  armed : p ≤ i
  exceeds : Over k h z m i d
  upFirst : d = .down → ¬ Over k h z m i .up
  first : ∀ l, p ≤ l → l < i → ∀ e, ¬ Over k h z m l e

/-- The residuals cut into stretches, each closed by the first window that is over. -/
inductive AlarmAt (warmup : ℕ) : ℕ → Direction → Prop
  | first {i : ℕ} {d : Direction} : FirstOver k h z warmup warmup i d → AlarmAt warmup i d
  | next {a i : ℕ} {e d : Direction} : AlarmAt warmup a e → FirstOver k h z (a + 1) (a + 3) i d → AlarmAt warmup i d

/-- Between an alarm at `a` and one at `i` some residual is not beyond half a sigma in the direction of the
second; or the first is in the other direction, and so is the residual before it. -/
def Apart (a : ℕ) (e : Direction) (i : ℕ) (d : Direction) : Prop :=
  (∃ l, a ≤ l ∧ l < i ∧ ¬ Beyond z d l) ∨ e ≠ d ∧ ∃ b, b + 1 = a ∧ Beyond z e b

end Windows

variable {k h : ℚ} {warmup : ℕ} {z : Vec} {s : Cusum} {i m p a : ℕ} {d e : Direction}

section Backwards

lemma Beyond.unique {l : ℕ} (hd : Beyond z d l) (he : Beyond z e l) : e = d := by
  rcases Direction.eq_or_other d e with rfl | rfl
  · rfl
  · rw [Beyond] at hd
    rw [Beyond, Direction.sgn_other] at he
    linarith

lemma passes_iff (ha : a < i) : backtrack z d.sgn i ≤ backtrack z e.sgn a ↔
    (∀ l, a ≤ l → l < i → Beyond z d l) ∧ (e = d ∨ ∀ b, b + 1 = a → ¬ Beyond z e b) := by
  have hstart : backtrack z e.sgn a ≤ a := backtrack_le a
  have hrun : ∀ l, backtrack z e.sgn a ≤ l → l < a → Beyond z e l := (backtrack_le_iff hstart).mp le_rfl
  rw [backtrack_le_iff (hstart.trans ha.le)]
  constructor
  · intro hall
    refine ⟨fun l hl hli => hall l (hstart.trans hl) hli, ?_⟩
    by_contra hne
    push Not at hne
    obtain ⟨hed, b, rfl, hb⟩ := hne
    -- the residual before the alarm would point both ways
    have hle : backtrack z e.sgn (b + 1) ≤ b := by
      refine (backtrack_le_iff (Nat.le_succ b)).mpr fun l hl hl' => ?_
      obtain rfl : l = b := by omega
      exact hb
    exact hed (Beyond.unique (hall b hle (by omega)) hb)
  · rintro ⟨hafter, hdir⟩ l hl hli
    rcases Nat.lt_or_ge l a with hla | hla
    · rcases hdir with rfl | hno
      · exact hrun l hl hla
      · exact absurd (hrun (a - 1) (by omega) (by omega)) (hno (a - 1) (by omega))
    · exact hafter l hla hli

lemma apart_iff (ha : a < i) : Apart z a e i d ↔ backtrack z e.sgn a < backtrack z d.sgn i := by
  rw [← not_le, passes_iff ha, Apart]
  push Not
  constructor
  · rintro (⟨l, hl, hli, hb⟩ | ⟨hne, b, hb, hbeyond⟩) hafter
    · exact absurd (hafter l hl hli) hb
    · exact ⟨hne, b, hb, hbeyond⟩
  · intro himp
    by_cases hafter : ∀ l, a ≤ l → l < i → Beyond z d l
    · exact Or.inr (himp hafter)
    · push Not at hafter
      exact Or.inl hafter

end Backwards

section Stretches

structure Follows (k h : ℚ) (z : Vec) (m p i : ℕ) (s : Cusum) : Prop where
  start : m ≤ i
  armedAt : s.armedAt = p
  gauge : ∀ d, s.gauge d = clamped (Cusum.drift k z d) m i
  quiet : ∀ l, p ≤ l → l < i → ∀ d, ¬ Over k h z m l d

lemma Follows.next (hs : Follows k h z m p i s) (d : Direction) :
    s.next k z i d = clamped (Cusum.drift k z d) m (i + 1) := by
  rw [Cusum.next, hs.gauge, clamped_succ hs.start]

lemma Follows.over_iff (hs : Follows k h z m p i s) : h < s.next k z i d ↔ Over k h z m i d := by
  rw [hs.next]
  exact lt_clamped_iff (hs.start.trans (Nat.le_succ i))

lemma Follows.alarms_iff (hs : Follows k h z m p i s) : s.Alarms k h z i d ↔ FirstOver k h z m p i d := by
  have hup : s.next k z i .up ≤ h ↔ ¬ Over k h z m i .up := by rw [← hs.over_iff, not_lt]
  rw [Cusum.Alarms, hs.armedAt, hs.over_iff, hup]
  constructor
  · rintro ⟨harmed, hover, hup⟩
    exact ⟨harmed, hover, hup, hs.quiet⟩
  · rintro ⟨harmed, hover, hup, -⟩
    exact ⟨harmed, hover, hup⟩

lemma follows_start : Follows k h z warmup warmup warmup (cusumBefore k h warmup z warmup) := by
  rw [cusumBefore_start]
  exact ⟨le_rfl, rfl, fun d => by cases d <;> exact clamped_start.symm, fun l hl hl' => absurd hl' (not_lt.mpr hl)⟩

lemma follows_alarm (sgn : ℚ) : Follows k h z (i + 1) (i + 3) (i + 1) (s.alarm z i d sgn) := by
  refine ⟨le_rfl, rfl, fun e => ?_, fun l hl hl' => by omega⟩
  rw [Cusum.gauge_alarm, clamped_start]

lemma Follows.quiet_step (hs : Follows k h z m p i s) (hq : p ≤ i → ∀ d, ¬ Over k h z m i d) :
    Follows k h z m p (i + 1) (s.step k h z i) ∧ (s.step k h z i).onsets = s.onsets := by
  have hnone : ∀ d, ¬ s.Alarms k h z i d := by
    intro d hd
    obtain ⟨harmed, hover, -⟩ := hs.alarms_iff.mp hd
    exact hq harmed d hover
  rw [Cusum.step_quiet hnone]
  refine ⟨⟨hs.start.trans (Nat.le_succ i), hs.armedAt, fun d => ?_, fun l hl hli => ?_⟩, rfl⟩
  · rw [Cusum.gauge_quiet, hs.next]
  · rcases (Nat.lt_succ_iff.mp hli).eq_or_lt with rfl | hlt
    · exact hq hl
    · exact hs.quiet l hl hlt

lemma Follows.until (hi : warmup ≤ i) (hs : Follows k h z m p i (cusumBefore k h warmup z i)) {j : ℕ} (hij : i ≤ j)
    (hq : ∀ l, p ≤ l → l < j → ∀ d, ¬ Over k h z m l d) : Follows k h z m p j (cusumBefore k h warmup z j) ∧
      (cusumBefore k h warmup z j).onsets = (cusumBefore k h warmup z i).onsets := by
  induction j, hij using Nat.le_induction with
  | base => exact ⟨hs, rfl⟩
  | succ j hij ih =>
    obtain ⟨hj, honsets⟩ := ih fun l hl hlj => hq l hl (hlj.trans (Nat.lt_succ_self j))
    rw [cusumBefore_succ (hi.trans hij)]
    obtain ⟨hstep, hkept⟩ := hj.quiet_step fun hpj => hq j hpj (Nat.lt_succ_self j)
    exact ⟨hstep, hkept.trans honsets⟩

def Since (k h : ℚ) (z : Vec) (a : ℕ) (e : Direction) (i : ℕ) (s : Cusum) : Prop :=
  Follows k h z (a + 1) (a + 3) i s ∧ s.onsets.getLast? = some ⟨backtrack z e.sgn a, e, z.getD a 0⟩

lemma since_alarm (ha : s.Alarms k h z i d) : Since k h z i d (i + 1) (s.step k h z i) := by
  rw [Cusum.step_alarm ha]
  exact ⟨follows_alarm _, by rw [Cusum.alarm, List.getLast?_concat]⟩

/-- Whatever the residuals say, the loop does: an alarm of the description is one of the loop. -/
lemma AlarmAt.since (ha : AlarmAt k h z warmup a e) :
    warmup ≤ a ∧ Since k h z a e (a + 1) (cusumBefore k h warmup z (a + 1)) := by
  induction ha with
  | first hf =>
    obtain ⟨hs, -⟩ := follows_start.until le_rfl hf.armed hf.first
    rw [cusumBefore_succ hf.armed]
    exact ⟨hf.armed, since_alarm (hs.alarms_iff.mpr hf)⟩
  | @next a i e d _ hf ih =>
    obtain ⟨hwa, hs, -⟩ := ih
    have hai : a + 1 ≤ i := by have := hf.armed; omega
    obtain ⟨hs', -⟩ := hs.until (by omega) hai hf.first
    rw [cusumBefore_succ (by omega)]
    exact ⟨by omega, since_alarm (hs'.alarms_iff.mpr hf)⟩

lemma AlarmAt.until (ha : AlarmAt k h z warmup a e) (hf : FirstOver k h z (a + 1) (a + 3) i d) :
    Since k h z a e i (cusumBefore k h warmup z i) := by
  obtain ⟨hwa, hs, hlast⟩ := ha.since
  have hai : a + 1 ≤ i := by have := hf.armed; omega
  obtain ⟨hs', honsets⟩ := hs.until (by omega) hai hf.first
  exact ⟨hs', by rw [honsets, hlast]⟩

/-- And the loop does nothing else. -/
lemma since_run (hi : warmup ≤ i) : (Follows k h z warmup warmup i (cusumBefore k h warmup z i) ∧
    (cusumBefore k h warmup z i).onsets = []) ∨
      ∃ a e, AlarmAt k h z warmup a e ∧ Since k h z a e i (cusumBefore k h warmup z i) := by
  induction i, hi using Nat.le_induction with
  | base => exact Or.inl ⟨follows_start, by rw [cusumBefore_start]⟩
  | succ i hi ih =>
    rw [cusumBefore_succ hi]
    by_cases hd : ∃ d, (cusumBefore k h warmup z i).Alarms k h z i d
    · obtain ⟨d, hd⟩ := hd
      refine Or.inr ⟨i, d, ?_, since_alarm hd⟩
      rcases ih with ⟨hs, -⟩ | ⟨a, e, ha, hs, -⟩
      · exact AlarmAt.first (hs.alarms_iff.mp hd)
      · exact AlarmAt.next ha (hs.alarms_iff.mp hd)
    · push Not at hd
      have hquiet : ∀ {m p}, Follows k h z m p i (cusumBefore k h warmup z i) → p ≤ i → ∀ d, ¬ Over k h z m i d := by
        intro m p hs hpi d hover
        by_cases hup : Over k h z m i .up
        · exact hd .up (hs.alarms_iff.mpr ⟨hpi, hup, by simp, hs.quiet⟩)
        · exact hd d (hs.alarms_iff.mpr ⟨hpi, hover, fun _ => hup, hs.quiet⟩)
      rcases ih with ⟨hs, hnil⟩ | ⟨a, e, ha, hs, hlast⟩
      · obtain ⟨hs', honsets⟩ := hs.quiet_step (hquiet hs)
        exact Or.inl ⟨hs', honsets.trans hnil⟩
      · obtain ⟨hs', honsets⟩ := hs.quiet_step (hquiet hs)
        exact Or.inr ⟨a, e, ha, hs', by rw [honsets, hlast]⟩

end Stretches

section Increasing

lemma Cusum.Alarms.unique (hd : s.Alarms k h z i d) (he : s.Alarms k h z i e) : e = d := by
  cases d with
  | up =>
    cases e with
    | up => rfl
    | down => exact absurd hd.2.1 (not_lt.mpr (he.2.2 rfl))
  | down =>
    cases e with
    | up => exact absurd he.2.1 (not_lt.mpr (hd.2.2 rfl))
    | down => rfl

lemma later_iff (hi : warmup ≤ i) (hd : (cusumBefore k h warmup z i).Alarms k h z i d) :
    (∀ o ∈ (cusumBefore k h warmup z i).onsets.getLast?, o.idx < backtrack z d.sgn i) ↔
      ∀ a e, AlarmAt k h z warmup a e → FirstOver k h z (a + 1) (a + 3) i d → Apart z a e i d := by
  constructor
  · intro hall a e ha hf
    have hai : a < i := by have := hf.armed; omega
    exact (apart_iff hai).mpr (hall _ (ha.until hf).2)
  · intro hall o ho
    rcases since_run (k := k) (h := h) (z := z) hi with ⟨-, hnil⟩ | ⟨a, e, ha, hs, hlast⟩
    · rw [hnil] at ho
      cases ho
    · have hf := hs.alarms_iff.mp hd
      have hai : a < i := by have := hf.armed; omega
      rw [hlast, Option.mem_some_iff] at ho
      subst ho
      exact (apart_iff hai).mp (hall a e ha hf)

def AllApart (k h : ℚ) (warmup : ℕ) (z : Vec) (n : ℕ) : Prop := ∀ a e i d, i < n → AlarmAt k h z warmup a e →
  FirstOver k h z (a + 1) (a + 3) i d → Apart z a e i d

lemma increasing_run (hi : warmup ≤ i) : ((cusumBefore k h warmup z i).onsets.Pairwise fun a b => a.idx < b.idx) ↔
    AllApart k h warmup z i := by
  induction i, hi using Nat.le_induction with
  | base =>
    rw [cusumBefore_start]
    refine iff_of_true List.Pairwise.nil fun a e i d hi ha hf => ?_
    have := ha.since.1
    have := hf.armed
    omega
  | succ i hi ih =>
    have hsplit : AllApart k h warmup z (i + 1) ↔ AllApart k h warmup z i ∧
        ∀ d a e, AlarmAt k h z warmup a e → FirstOver k h z (a + 1) (a + 3) i d → Apart z a e i d := by
      constructor
      · exact fun hall => ⟨fun a e j d hj => hall a e j d (by omega), fun d a e => hall a e i d (Nat.lt_succ_self i)⟩
      · rintro ⟨hbefore, hnow⟩ a e j d hj
        rcases (Nat.lt_succ_iff.mp hj).eq_or_lt with rfl | hlt
        · exact hnow d a e
        · exact hbefore a e j d hlt
    rw [hsplit, ← ih, cusumBefore_succ hi]
    rcases Cusum.step_cases k h z (cusumBefore k h warmup z i) i with ⟨d, hd, hs⟩ | ⟨hq, hs⟩
    · rw [hs]
      refine (pairwise_concat_last (R := fun a b : Onset => a.idx < b.idx) fun _ _ _ => Nat.lt_trans).trans ?_
      apply and_congr_right
      intro _
      refine (later_iff hi hd).trans ⟨fun hall d' a e ha hf => ?_, fun hall => hall d⟩
      obtain rfl := ((ha.until hf).1.alarms_iff.mpr hf).unique hd
      exact hall a e ha hf
    · rw [hs]
      exact (and_iff_left fun d a e ha hf => absurd ((ha.until hf).1.alarms_iff.mpr hf) (hq d)).symm

end Increasing

def pulsed : Vec := (List.range 24).map fun i => (if i % 2 = 0 then 0 else 1) + if 14 ≤ i ∧ i < 19 then 6 else 0

end CausalEngine.Correlation
