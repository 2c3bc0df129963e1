import Mathlib.Tactic

/-! Runs of a deterministic machine that reads one input and gives one output at a time. -/

namespace CausalEngine.Foundations.Runs

variable {σ ι ο : Type} (step : σ → ι → σ × ο)

def final (s : σ) : List ι → σ
  | [] => s
  | x :: xs => final (step s x).1 xs

def outputs (s : σ) : List ι → List ο
  | [] => []
  | x :: xs => (step s x).2 :: outputs (step s x).1 xs

@[simp] lemma final_append (s : σ) (xs ys : List ι) :
    final step s (xs ++ ys) = final step (final step s xs) ys := by
  induction xs generalizing s with
  | nil => rfl
  | cons x xs ih => exact ih _

@[simp] lemma outputs_append (s : σ) (xs ys : List ι) :
    outputs step s (xs ++ ys) = outputs step s xs ++ outputs step (final step s xs) ys := by
  induction xs generalizing s with
  | nil => rfl
  | cons x xs ih => exact congrArg _ (ih _)

lemma final_invariant {P : σ → Prop} {s : σ} (xs : List ι) (h : P s)
    (hstep : ∀ t, P t → ∀ x ∈ xs, P (step t x).1) : P (final step s xs) := by
  induction xs generalizing s with
  | nil => exact h
  | cons x xs ih =>
    exact ih (hstep s h x List.mem_cons_self)
      (fun t ht y hy => hstep t ht y (List.mem_cons_of_mem _ hy))

lemma final_snoc (s : σ) (xs : List ι) (x : ι) : final step s (xs ++ [x]) = (step (final step s xs) x).1 := by
  rw [final_append]
  rfl

lemma final_prefixes_iff {P I : σ → Prop} {Q : σ → ι → Prop} {s : σ} (hi : I s) (hp : P s)
    (hI : ∀ t x, I t → I (step t x).1) (hstep : ∀ t x, I t → P t → (P (step t x).1 ↔ Q t x)) (xs : List ι) :
    (∀ ys, ys <+: xs → P (final step s ys)) ↔ ∀ ys x, ys ++ [x] <+: xs → Q (final step s ys) x := by
  have hinv : ∀ ys, I (final step s ys) := fun ys => final_invariant step ys hi fun t ht x _ => hI t x ht
  constructor
  · intro h ys x hx
    have hys := h ys ((List.prefix_append ys [x]).trans hx)
    have hnext := h _ hx
    rw [final_snoc] at hnext
    exact (hstep _ x (hinv ys) hys).mp hnext
  · intro h ys
    induction ys using List.reverseRecOn with
    | nil => exact fun _ => hp
    | append_singleton ys x ih =>
      intro hx
      have hys := ih ((List.prefix_append ys [x]).trans hx)
      rw [final_snoc]
      exact (hstep _ x (hinv ys) hys).mpr (h ys x hx)

lemma run_related {ω : Type} {R : σ → σ → Prop} {I : ι → ι → Prop} (view : ο → ω)
    (hstep : ∀ s t x y, R s t → I x y →
      R (step s x).1 (step t y).1 ∧ view (step s x).2 = view (step t y).2)
    {s t : σ} (h : R s t) {xs ys : List ι} (hi : List.Forall₂ I xs ys) :
    R (final step s xs) (final step t ys) ∧
      (outputs step s xs).map view = (outputs step t ys).map view := by
  induction hi generalizing s t with
  | nil => exact ⟨h, rfl⟩
  | cons hxy _ ih =>
    obtain ⟨hr, hv⟩ := hstep s t _ _ h hxy
    obtain ⟨hf, ho⟩ := ih hr
    exact ⟨hf, by simp only [outputs, List.map_cons, hv, ho]⟩

lemma account (μ : σ → ℕ) (paid earned : ο → Bool) (price : ℕ)
    (hstep : ∀ s x, (if paid (step s x).2 then price else 0) + μ (step s x).1 ≤
      μ s + if earned (step s x).2 then 1 else 0) (s : σ) (xs : List ι) :
    price * (outputs step s xs).countP paid + μ (final step s xs) ≤ μ s + (outputs step s xs).countP earned := by
  induction xs generalizing s with
  | nil => simp [outputs, final]
  | cons x xs ih =>
    have hx := hstep s x
    have hxs := ih (step s x).1
    rw [outputs, final, List.countP_cons, List.countP_cons]
    split_ifs at hx ⊢ <;> simp only [Nat.mul_add, Nat.mul_one, Nat.add_zero] <;> omega

lemma balance (μ : σ → ℕ) (paid earned : ο → ℕ)
    (hstep : ∀ s x, paid (step s x).2 + μ (step s x).1 = μ s + earned (step s x).2) (s : σ) (xs : List ι) :
    ((outputs step s xs).map paid).sum + μ (final step s xs) = μ s + ((outputs step s xs).map earned).sum := by
  induction xs generalizing s with
  | nil => simp [outputs, final]
  | cons x xs ih =>
    have hx := hstep s x
    have hxs := ih (step s x).1
    rw [outputs, final, List.map_cons, List.sum_cons, List.map_cons, List.sum_cons]
    omega

end CausalEngine.Foundations.Runs
