import Mathlib.Algebra.BigOperators.Group.List.Basic
import Mathlib.Algebra.CharZero.Defs
import Mathlib.Algebra.Field.Basic
import Mathlib.Tactic

/-! First and second moments of lists over a field: products of centred lists in terms of plain sums, and
the moments of the indices below a bound and of the marks of a mask. -/

namespace CausalEngine.Foundations

variable {K : Type} [Field K]

def dot (x y : List K) : K := (List.zipWith (· * ·) x y).sum

def ramp (K : Type) [Field K] (n : ℕ) : List K := (List.range n).map fun i : ℕ => (i : K)

def marks (K : Type) [Field K] (mask : List Bool) : List K := mask.map fun c => if c then 1 else 0

section Products

lemma dot_centred (p q : K) {x y : List K} (h : x.length = y.length) :
    dot (x.map (· - p)) (y.map (· - q)) = dot x y - q * x.sum - p * y.sum + x.length * (p * q) := by
  induction x generalizing y with
  | nil =>
    obtain rfl := List.eq_nil_of_length_eq_zero h.symm
    simp [dot]
  | cons a x ih =>
    cases y with
    | nil => simp at h
    | cons b y =>
      have hxy := ih (Nat.succ.inj h)
      simp only [dot, List.map_cons, List.zipWith_cons_cons, List.sum_cons, List.length_cons] at hxy ⊢
      rw [hxy]
      push_cast
      ring

lemma dot_scale (c : K) (x y : List K) : dot x (y.map (c * ·)) = c * dot x y := by
  have hmap : List.zipWith (· * ·) x (y.map (c * ·)) = (List.zipWith (· * ·) x y).map (c * ·) := by
    rw [List.zipWith_map_right, List.map_zipWith]
    simp only [mul_left_comm]
  rw [dot, hmap, List.sum_map_mul_left, List.map_id', dot]

lemma dot_comm (x y : List K) : dot x y = dot y x := by
  rw [dot, dot, List.zipWith_comm]
  simp only [mul_comm]

end Products

section Ramp

variable (n : ℕ)

lemma ramp_length : (ramp K n).length = n := by simp [ramp]

lemma ramp_succ : ramp K (n + 1) = ramp K n ++ [(n : K)] := by
  rw [ramp, List.range_succ, List.map_append]
  rfl

variable [CharZero K]

lemma sum_ramp : (ramp K n).sum = n * (n - 1) / 2 := by
  induction n with
  | zero => simp [ramp]
  | succ n ih =>
    rw [ramp_succ, List.sum_append, List.sum_singleton, ih]
    push_cast
    ring

lemma dot_ramp : dot (ramp K n) (ramp K n) = n * (n - 1) * (2 * n - 1) / 6 := by
  induction n with
  | zero => simp [ramp, dot]
  | succ n ih =>
    rw [dot] at ih ⊢
    rw [ramp_succ, List.zipWith_append rfl, List.sum_append, ih, List.zipWith_cons_cons, List.zipWith_nil_left,
      List.sum_singleton]
    push_cast
    ring

end Ramp

section Marks

variable (mask : List Bool)

lemma marks_length : (marks K mask).length = mask.length := List.length_map _

lemma sum_marks : (marks K mask).sum = mask.count true := by
  induction mask with
  | nil => simp [marks]
  | cons c mask ih =>
    rw [marks] at ih ⊢
    rw [List.map_cons, List.sum_cons, ih]
    cases c with
    | false => simp
    | true => simp [add_comm]

lemma dot_marks : dot (marks K mask) (marks K mask) = mask.count true := by
  rw [← sum_marks, dot, marks, List.zipWith_self, List.map_map]
  congr 1
  apply List.map_congr_left
  intro c _
  cases c <;> simp

lemma marks_all (h : mask.count true = mask.length) : marks K mask = List.replicate mask.length 1 := by
  have hall : mask = List.replicate mask.length true :=
    List.eq_replicate_iff.mpr ⟨rfl, fun c hc => (List.count_eq_length.mp h c hc).symm⟩
  rw [marks, hall, List.map_replicate, List.length_replicate, if_pos rfl]

lemma dot_ones (x : List K) : dot x (List.replicate x.length 1) = x.sum := by
  induction x with
  | nil => rfl
  | cons a x ih =>
    rw [dot] at ih ⊢
    rw [List.length_cons, List.replicate_succ, List.zipWith_cons_cons, List.sum_cons, List.sum_cons, ih, mul_one]

end Marks

section Average

def average : List K → Option K
  | [] => none
  | a :: x => some ((a :: x).sum / (a :: x).length)

lemma average_eq_none {x : List K} : average x = none ↔ x = [] := by
  cases x <;> simp [average]

lemma average_of_some {x : List K} {m : K} (h : average x = some m) : x ≠ [] ∧ m = x.sum / x.length := by
  cases x with
  | nil => simp [average] at h
  | cons a x => exact ⟨List.cons_ne_nil a x, (Option.some.inj h).symm⟩

lemma average_snoc (x : List K) (l : K) : average (x ++ [l]) = some ((x.sum + l) / (x.length + 1)) := by
  cases x with
  | nil => simp [average]
  | cons a x => simp [average, add_assoc, one_add_one_eq_two]

variable [CharZero K]

lemma average_update {x : List K} {m l : K} (n : ℕ) (h : average x = some m) :
    some ((m * n + l) / (n + 1)) = average (x ++ [l]) ↔ l = m ∨ n = x.length := by
  obtain ⟨hne, rfl⟩ := average_of_some h
  have hk : (x.length : K) ≠ 0 := by simpa using hne
  have hn : (n : K) + 1 ≠ 0 := Nat.cast_add_one_ne_zero n
  have hk' : (x.length : K) + 1 ≠ 0 := Nat.cast_add_one_ne_zero _
  rw [average_snoc, Option.some.injEq, div_eq_div_iff hn hk', ← sub_eq_zero]
  have hfactor : (x.sum / x.length * n + l) * (x.length + 1) - (x.sum + l) * (n + 1) =
      (l - x.sum / x.length) * (x.length - n) := by
    field_simp
    ring
  rw [hfactor, mul_eq_zero, sub_eq_zero, sub_eq_zero, Nat.cast_inj, eq_comm (a := x.length)]

lemma average_absorbs {x : List K} {m l : K} (h : average x = some m) : average (x ++ [l]) = some m ↔ m = l := by
  obtain ⟨hne, rfl⟩ := average_of_some h
  have hk : (x.length : K) ≠ 0 := by simpa using hne
  have hk' : (x.length : K) + 1 ≠ 0 := Nat.cast_add_one_ne_zero _
  rw [average_snoc, Option.some.injEq, div_eq_div_iff hk' hk, div_eq_iff hk]
  constructor
  · exact fun he => by linear_combination -he
  · exact fun he => by linear_combination -he

end Average

end CausalEngine.Foundations
