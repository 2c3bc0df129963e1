import CausalEngine.Foundations.OrderedMap
import CausalEngine.Foundations.Runs

/-! A machine made of components, each with a state of its own, that are stepped one after another until one of
them raises. -/

namespace CausalEngine.Foundations.Components

variable {κ σ ω ι : Type}

inductive Outcome (ω : Type)
  | silent
  | value (w : ω)
  | raised

def Outcome.value? : Outcome ω → Option ω
  | .value w => some w
  | _ => none

def Outcome.isRaised : Outcome ω → Bool
  | .raised => true
  | _ => false

def reached (raises : κ → Bool) : List κ → List κ
  | [] => []
  | k :: ks => if raises k then [k] else k :: reached raises ks

section Definitions

variable [DecidableEq κ] (step : κ → σ → σ × Outcome ω)

def stepUntil (m : κ → σ) (out : OrderedMap κ ω) : List κ → (κ → σ) × Option (OrderedMap κ ω)
  | [] => (m, some out)
  | k :: ks =>
    let (s, o) := step k (m k)
    match o with
    | .silent => stepUntil (Function.update m k s) out ks
    | .value w => stepUntil (Function.update m k s) (out.set k w) ks
    | .raised => (Function.update m k s, none)

omit [DecidableEq κ] in
def emitted (m : κ → σ) (ks : List κ) : List (κ × ω) := ks.filterMap fun k => (step k (m k)).2.value?.map (k, ·)

end Definitions

section Reached

variable {raises : κ → Bool} {ks : List κ}

lemma reached_subset : reached raises ks ⊆ ks := by
  induction ks with
  | nil => exact List.Subset.refl _
  | cons k ks ih =>
    rw [reached]
    split_ifs
    · simp
    · exact List.cons_subset_cons k ih

lemma reached_all (h : ∀ k ∈ ks, raises k = false) : reached raises ks = ks := by
  induction ks with
  | nil => rfl
  | cons k ks ih =>
    obtain ⟨hk, hks⟩ := List.forall_mem_cons.mp h
    rw [reached, hk, ih hks]
    rfl

end Reached

section Step

variable [DecidableEq κ] (step : κ → σ → σ × Outcome ω) {m : κ → σ} {ks : List κ}

omit [DecidableEq κ] in
lemma emitted_congr {m' : κ → σ} (h : ∀ k ∈ ks, m k = m' k) : emitted step m ks = emitted step m' ks :=
  List.filterMap_congr fun k hk => by rw [h k hk]

lemma reached_states {raises : κ → Bool} {k : κ} (hk : k ∉ ks) :
    (fun j => if j ∈ reached raises ks then (step j (Function.update m k (step k (m k)).1 j)).1
      else Function.update m k (step k (m k)).1 j) =
        fun j => if j ∈ k :: reached raises ks then (step j (m j)).1 else m j := by
  funext j
  by_cases hj : j = k
  · subst hj
    have hnot : j ∉ reached raises ks := fun hr => hk (reached_subset hr)
    simp [hnot]
  · simp [hj]

lemma stepUntil_eq {raises : κ → Bool} (hraise : ∀ k s, (step k s).2.isRaised = raises k) (h : ks.Nodup)
    (out : OrderedMap κ ω) : stepUntil step m out ks =
      (fun k => if k ∈ reached raises ks then (step k (m k)).1 else m k,
        if ks.any raises then none else some ((emitted step m ks).foldl (fun out e => out.set e.1 e.2) out)) := by
  induction ks generalizing m out with
  | nil => simp [stepUntil, reached, emitted]
  | cons k ks ih =>
    obtain ⟨hk, hks⟩ := List.nodup_cons.mp h
    have hother : ∀ j ∈ ks, Function.update m k (step k (m k)).1 j = m j := by
      intro j hj
      exact Function.update_of_ne (ne_of_mem_of_not_mem hj hk) _ _
    rw [stepUntil]
    cases ho : (step k (m k)).2 with
    | silent =>
      have hraises : raises k = false := by rw [← hraise k (m k), ho]; rfl
      have hemitted : emitted step m (k :: ks) = emitted step m ks := by simp [emitted, ho, Outcome.value?]
      simp only [ho]
      rw [ih hks, emitted_congr step hother, reached_states step hk, reached, List.any_cons, hraises, hemitted]
      rfl
    | value w =>
      have hraises : raises k = false := by rw [← hraise k (m k), ho]; rfl
      have hemitted : emitted step m (k :: ks) = (k, w) :: emitted step m ks := by simp [emitted, ho, Outcome.value?]
      simp only [ho]
      rw [ih hks, emitted_congr step hother, reached_states step hk, reached, List.any_cons, hraises, hemitted]
      rfl
    | raised =>
      have hraises : raises k = true := by rw [← hraise k (m k), ho]; rfl
      simp only [ho, reached, hraises, if_true, List.any_cons, Bool.true_or]
      refine Prod.ext ?_ rfl
      funext j
      by_cases hj : j = k
      · subst hj
        simp
      · simp [hj]

lemma mem_stepUntil {out out' : OrderedMap κ ω} (h : (stepUntil step m out ks).2 = some out') {e : κ × ω}
    (he : e ∈ out'.entries) : e ∈ out.entries ∨ e.1 ∈ ks ∧ ∃ s, (step e.1 s).2 = .value e.2 := by
  induction ks generalizing m out with
  | nil =>
    obtain rfl := Option.some.inj h
    exact Or.inl he
  | cons k ks ih =>
    rw [stepUntil] at h
    cases ho : (step k (m k)).2 with
    | silent =>
      simp only [ho] at h
      exact (ih h).imp_right fun ⟨hk, hs⟩ => ⟨List.mem_cons_of_mem _ hk, hs⟩
    | value w =>
      simp only [ho] at h
      rcases ih h with hset | ⟨hk, hs⟩
      · rcases OrderedMap.mem_entries_set hset with rfl | hold
        · exact Or.inr ⟨List.mem_cons_self, m k, ho⟩
        · exact Or.inl hold
      · exact Or.inr ⟨List.mem_cons_of_mem _ hk, hs⟩
    | raised => simp [ho] at h

end Step

section Run

variable [DecidableEq κ] {step : ι → κ → σ → σ × Outcome ω} {ο : Type} {machine : (κ → σ) → ι → (κ → σ) × ο}
  {visits : ι → List κ}

lemma final_apply (hstep : ∀ m x, (machine m x).1 = fun k => if k ∈ visits x then (step x k (m k)).1 else m k)
    (m : κ → σ) (xs : List ι) (k : κ) : Runs.final machine m xs k =
      Runs.final (fun s x => step x k s) (m k) (xs.filter fun x => k ∈ visits x) := by
  induction xs generalizing m with
  | nil => rfl
  | cons x xs ih =>
    rw [Runs.final, ih, hstep, List.filter_cons]
    dsimp only
    by_cases hk : k ∈ visits x
    · rw [if_pos hk, if_pos (decide_eq_true hk), Runs.final]
    · rw [if_neg hk, if_neg (by simpa using hk)]

end Run

end CausalEngine.Foundations.Components
