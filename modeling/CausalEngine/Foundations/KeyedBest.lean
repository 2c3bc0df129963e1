import CausalEngine.Foundations.OrderedMap

/-! One item per key: a later item takes the place of an earlier one when it is strictly better. -/

namespace CausalEngine.Foundations

variable {α β κ : Type} [DecidableEq κ] [LinearOrder β] (key : α → κ) (pref : α → β)

def keepBest (m : OrderedMap κ α) (e : α) : OrderedMap κ α :=
  match m.get? (key e) with
  | none => m.set (key e) e
  | some f => if pref f < pref e then m.set (key e) e else m

def bestByKey (l : List α) : OrderedMap κ α := l.foldl (keepBest key pref) .empty

lemma get?_keepBest (m : OrderedMap κ α) (e : α) (k : κ) :
    (keepBest key pref m e).get? k =
      if k = key e ∧ ∀ f, m.get? k = some f → pref f < pref e then some e else m.get? k := by
  simp only [keepBest]
  by_cases hk : k = key e
  · subst hk
    cases hm : m.get? (key e) with
    | none => simp
    | some f =>
      by_cases hf : pref f < pref e
      · simp [hf]
      · simp [hf, hm]
  · cases hm : m.get? (key e) with
    | none => simp [hk]
    | some f => by_cases hf : pref f < pref e <;> simp [hf, hk]

lemma get?_bestByKey (l : List α) (k : κ) :
    (∀ e, (bestByKey key pref l).get? k = some e →
      e ∈ l ∧ key e = k ∧ ∀ f ∈ l, key f = k → pref f ≤ pref e) ∧
    ((bestByKey key pref l).get? k = none → ∀ f ∈ l, key f ≠ k) := by
  induction l using List.reverseRecOn with
  | nil => simp [bestByKey]
  | append_singleton l a ih =>
    obtain ⟨hsome, hnone⟩ := ih
    have hfold : bestByKey key pref (l ++ [a]) = keepBest key pref (bestByKey key pref l) a := by
      simp [bestByKey]
    rw [hfold, get?_keepBest]
    split_ifs with h
    · obtain ⟨rfl, hlt⟩ := h
      refine ⟨?_, by simp⟩
      rintro e he
      obtain rfl := Option.some.inj he
      refine ⟨by simp, rfl, ?_⟩
      intro f hf hk
      rcases List.mem_append.mp hf with hf | hf
      · cases hm : (bestByKey key pref l).get? (key a) with
        | none => exact (hnone hm f hf hk).elim
        | some g => exact ((hsome g hm).2.2 f hf hk).trans (hlt g hm).le
      · rw [List.mem_singleton.mp hf]
    · constructor
      · intro e he
        obtain ⟨hel, hek, hbest⟩ := hsome e he
        refine ⟨List.mem_append_left _ hel, hek, ?_⟩
        intro f hf hk
        rcases List.mem_append.mp hf with hf | hf
        · exact hbest f hf hk
        · rw [List.mem_singleton.mp hf] at hk ⊢
          by_contra hlt
          apply h
          refine ⟨hk.symm, fun g hg => ?_⟩
          obtain rfl := Option.some.inj (hg.symm.trans he)
          exact not_le.mp hlt
      · intro hm f hf hk
        rcases List.mem_append.mp hf with hf | hf
        · exact hnone hm f hf hk
        · rw [List.mem_singleton.mp hf] at hk
          exact h ⟨hk.symm, fun g hg => by simp [hm] at hg⟩

lemma map_values_bestByKey (l : List α) :
    (bestByKey key pref l).values.map key = (bestByKey key pref l).keys := by
  rw [OrderedMap.values, List.map_map]
  apply List.map_congr_left
  rintro ⟨k, e⟩ he
  exact ((get?_bestByKey key pref l k).1 e (((bestByKey key pref l).get?_eq_some k e).mpr he)).2.1

lemma mem_values_bestByKey (l : List α) (e : α) :
    e ∈ (bestByKey key pref l).values ↔ (bestByKey key pref l).get? (key e) = some e := by
  constructor
  · intro h
    obtain ⟨⟨k, f⟩, hf, rfl⟩ := List.mem_map.mp h
    have hg := ((bestByKey key pref l).get?_eq_some k f).mpr hf
    obtain ⟨-, hk, -⟩ := (get?_bestByKey key pref l k).1 f hg
    exact hk.symm ▸ hg
  · exact OrderedMap.get?_mem_values

variable {pref}

variable {key} in
lemma mem_of_mem_bestByKey {l : List α} {e : α} (h : e ∈ (bestByKey key pref l).values) : e ∈ l :=
  ((get?_bestByKey key pref l (key e)).1 e ((mem_values_bestByKey key pref l e).mp h)).1

lemma bestByKey_covers {l : List α} {e : α} (h : e ∈ l) :
    ∃ f ∈ (bestByKey key pref l).values, key f = key e := by
  obtain ⟨hsome, hnone⟩ := get?_bestByKey key pref l (key e)
  cases hb : (bestByKey key pref l).get? (key e) with
  | none => exact (hnone hb e h rfl).elim
  | some f => exact ⟨f, OrderedMap.get?_mem_values hb, (hsome f hb).2.1⟩

end CausalEngine.Foundations
