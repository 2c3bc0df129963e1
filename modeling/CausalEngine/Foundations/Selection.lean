import Mathlib.Data.List.Sort
import Mathlib.Data.List.MinMax
import Mathlib.Data.Sym.Sym2
import Mathlib.Tactic

/-! Selecting from lists by a key: the first of a sorted list, the first maximum, ordered pairs. -/

namespace CausalEngine.Foundations

variable {α β : Type}

lemma head?_insertionSort [LinearOrder β] (key : α → β) {l : List α} {a : α} (ha : a ∈ l)
    (h : ∀ b ∈ l, b ≠ a → key a < key b) :
    (l.insertionSort fun x y => key x ≤ key y).head? = some a := by
  have hp : (l.insertionSort fun x y => key x ≤ key y).Pairwise fun x y => key x ≤ key y := by
    apply List.pairwise_insertionSort
  have hm : a ∈ l.insertionSort fun x y => key x ≤ key y := (List.mem_insertionSort _).mpr ha
  cases hs : l.insertionSort fun x y => key x ≤ key y with
  | nil => simp [hs] at hm
  | cons c t =>
    by_cases hc : c = a
    · simp [hc]
    · rw [hs] at hp hm
      have hcl : c ∈ l := (List.mem_insertionSort fun x y => key x ≤ key y).mp (hs ▸ List.mem_cons_self)
      rcases List.mem_cons.mp hm with rfl | hat
      · exact (hc rfl).elim
      · exact absurd (h c hcl hc) (not_lt.mpr ((List.pairwise_cons.mp hp).1 a hat))

lemma head?_insertionSort_argmin [LinearOrder β] (key : α → β) (l : List α) :
    (l.insertionSort fun x y => key x ≤ key y).head? = l.argmin key := by
  induction l with
  | nil => rfl
  | cons a l ih =>
    rw [List.insertionSort_cons, List.argmin_cons, ← ih]
    cases l.insertionSort fun x y => key x ≤ key y with
    | nil => rfl
    | cons b t =>
      rw [List.orderedInsert_cons, List.head?_cons]
      by_cases hab : key a ≤ key b
      · simp [hab, not_lt.mpr hab]
      · simp [hab, not_le.mp hab]

lemma nil_iff_of_perm {l l' : List α} (h : l.Perm l') : l = [] ↔ l' = [] := by
  rw [← List.perm_nil, ← List.perm_nil]
  exact ⟨h.symm.trans, h.trans⟩

lemma nodup_eraseDups [DecidableEq α] (l : List α) : l.eraseDups.Nodup := by
  induction h : l.length using Nat.strong_induction_on generalizing l with
  | _ n ih =>
    cases l with
    | nil => simp
    | cons a l =>
      rw [List.eraseDups_cons]
      have hlen := List.length_filter_le (fun b => !b == a) l
      refine List.nodup_cons.mpr ⟨by simp, ih _ ?_ _ rfl⟩
      rw [← h, List.length_cons]
      omega

def pairs : List α → List (α × α)
  | [] => []
  | a :: l => l.map (a, ·) ++ pairs l

lemma mem_of_mem_pairs {l : List α} {a b : α} (h : (a, b) ∈ pairs l) : a ∈ l ∧ b ∈ l := by
  induction l with
  | nil => simp [pairs] at h
  | cons c l ih =>
    rcases List.mem_append.mp h with h | h
    · obtain ⟨d, hd, he⟩ := List.mem_map.mp h
      obtain ⟨rfl, rfl⟩ := Prod.mk.inj he
      exact ⟨List.mem_cons_self, List.mem_cons_of_mem _ hd⟩
    · exact ⟨List.mem_cons_of_mem _ (ih h).1, List.mem_cons_of_mem _ (ih h).2⟩

lemma mem_pairs_sorted [LinearOrder α] {l : List α} (hl : l.Pairwise (· < ·)) {a b : α} :
    (a, b) ∈ pairs l ↔ a ∈ l ∧ b ∈ l ∧ a < b := by
  induction l with
  | nil => simp [pairs]
  | cons c l ih =>
    obtain ⟨hc, hl⟩ := List.pairwise_cons.mp hl
    simp only [pairs, List.mem_append, List.mem_map, Prod.mk.injEq, exists_eq_right_right, ih hl,
      List.mem_cons]
    constructor
    · rintro (⟨hb, rfl⟩ | ⟨ha, hb, hab⟩)
      · exact ⟨Or.inl rfl, Or.inr hb, hc b hb⟩
      · exact ⟨Or.inr ha, Or.inr hb, hab⟩
    · rintro ⟨rfl | ha, rfl | hb, hab⟩
      · exact (lt_irrefl _ hab).elim
      · exact Or.inl ⟨hb, rfl⟩
      · exact (lt_asymm hab (hc a ha)).elim
      · exact Or.inr ⟨ha, hb, hab⟩

lemma pairs_nodup {l : List α} (hl : l.Nodup) : ((pairs l).map fun q => s(q.1, q.2)).Nodup := by
  induction l with
  | nil => exact List.nodup_nil
  | cons a l ih =>
    obtain ⟨ha, hl⟩ := List.nodup_cons.mp hl
    simp only [pairs, List.map_append, List.map_map, Function.comp_def]
    refine (hl.map fun b c h => Sym2.congr_right.mp h).append (ih hl) ?_
    intro z hz hz'
    obtain ⟨b, _, rfl⟩ := List.mem_map.mp hz
    obtain ⟨⟨c, d⟩, hcd, h⟩ := List.mem_map.mp hz'
    have hsub : c ∈ l ∧ d ∈ l := mem_of_mem_pairs hcd
    rcases Sym2.eq_iff.mp h with ⟨rfl, _⟩ | ⟨_, rfl⟩
    · exact ha hsub.1
    · exact ha hsub.2

lemma map_filterMap_sublist {γ : Type} {f : α → Option β} {key : β → γ} {key' : α → γ}
    (h : ∀ x y, f x = some y → key y = key' x) (l : List α) :
    ((l.filterMap f).map key).Sublist (l.map key') := by
  induction l with
  | nil => exact List.Sublist.slnil
  | cons x l ih =>
    cases hx : f x with
    | none =>
      rw [List.filterMap_cons_none hx]
      exact ih.cons _
    | some y =>
      rw [List.filterMap_cons_some hx, List.map_cons, List.map_cons, h x y hx]
      exact ih.cons_cons _

lemma filter_eq_singleton [DecidableEq β] {f : α → β} {l : List α} (h : (l.map f).Nodup) {a : α} (ha : a ∈ l) :
    l.filter (fun b => f b = f a) = [a] := by
  induction l with
  | nil => simp at ha
  | cons b l ih =>
    obtain ⟨hb, hl⟩ := List.nodup_cons.mp h
    rcases List.mem_cons.mp ha with rfl | ha
    · rw [List.filter_cons_of_pos (by simp), List.filter_eq_nil_iff.mpr]
      intro c hc heq
      exact hb (of_decide_eq_true heq ▸ List.mem_map_of_mem hc)
    · rw [List.filter_cons_of_neg, ih hl ha]
      intro heq
      exact hb (of_decide_eq_true heq ▸ List.mem_map_of_mem ha)

lemma pairs_filter (p : α → Bool) (l : List α) :
    pairs (l.filter p) = (pairs l).filter fun q => p q.1 && p q.2 := by
  induction l with
  | nil => rfl
  | cons a l ih =>
    by_cases ha : p a
    · simp [pairs, ha, ih, List.filter_map, Function.comp_def]
    · simp [pairs, ha, ih, List.filter_map, Function.comp_def]

lemma sorted_nodup [LinearOrder α] {l : List α} (hl : l.Nodup) :
    (l.insertionSort (· ≤ ·)).Pairwise (· < ·) := by
  have hs : (l.insertionSort (· ≤ ·)).Pairwise (· ≤ ·) := List.pairwise_insertionSort _ _
  have hn : (l.insertionSort (· ≤ ·)).Nodup := (List.perm_insertionSort _ l).nodup_iff.mpr hl
  exact (hs.and hn).imp fun h => lt_of_le_of_ne h.1 h.2

lemma insertionSort_filter [LinearOrder α] (p : α → Bool) (l : List α) :
    (l.filter p).insertionSort (· ≤ ·) = (l.insertionSort (· ≤ ·)).filter p := by
  apply List.Perm.eq_of_pairwise' (r := (· ≤ ·)) (List.pairwise_insertionSort _ _)
  · exact (List.pairwise_insertionSort _ _).sublist List.filter_sublist
  · exact (List.perm_insertionSort _ _).trans ((List.perm_insertionSort _ l).filter p).symm

lemma flatMap_filter {p : α → Bool} {f g : α → List β} (hf : ∀ a, p a = true → f a = g a)
    (hg : ∀ a, p a = false → g a = []) (l : List α) : (l.filter p).flatMap f = l.flatMap g := by
  induction l with
  | nil => rfl
  | cons a l ih =>
    cases ha : p a with
    | true => rw [List.filter_cons_of_pos ha, List.flatMap_cons, List.flatMap_cons, hf a ha, ih]
    | false =>
      rw [List.filter_cons_of_neg (by simp [ha]), List.flatMap_cons, hg a ha, ih]
      rfl

lemma pairwise_concat_last {R : α → α → Prop} (htrans : ∀ a b c, R a b → R b c → R a c) {l : List α} {a : α} :
    (l ++ [a]).Pairwise R ↔ l.Pairwise R ∧ ∀ b ∈ l.getLast?, R b a := by
  rw [List.pairwise_append]
  simp only [List.pairwise_singleton, List.mem_singleton, forall_eq, true_and]
  apply and_congr_right
  intro hl
  induction l using List.reverseRecOn with
  | nil => simp
  | append_singleton l b _ =>
    simp only [List.getLast?_concat, Option.mem_some_iff, forall_eq']
    constructor
    · exact fun h => h b (by simp)
    · intro hb c hc
      rcases List.mem_append.mp hc with hc | hc
      · exact htrans c b a ((List.pairwise_append.mp hl).2.2 c hc b (by simp)) hb
      · exact List.mem_singleton.mp hc ▸ hb

section Argmax

variable {γ : Type} [LinearOrder γ]

lemma argmax_map (f : α → β) (g : β → γ) (l : List α) :
    (l.map f).argmax g = (l.argmax (g ∘ f)).map f := by
  induction l using List.reverseRecOn with
  | nil => rfl
  | append_singleton l a ih =>
    rw [List.map_append, List.map_singleton, List.argmax_concat, List.argmax_concat, ih]
    cases l.argmax (g ∘ f) with
    | none => rfl
    | some m =>
      simp only [Option.map_some, Function.comp_apply]
      split_ifs <;> rfl

lemma argmax_congr {f g : α → γ} {l : List α} (h : ∀ a ∈ l, f a = g a) : l.argmax f = l.argmax g := by
  induction l using List.reverseRecOn with
  | nil => rfl
  | append_singleton l a ih =>
    have hl := ih fun b hb => h b (List.mem_append_left _ hb)
    rw [List.argmax_concat, List.argmax_concat, hl, h a (by simp)]
    cases hm : l.argmax g with
    | none => rfl
    | some m => simp only [h m (List.mem_append_left _ (List.argmax_mem hm))]

lemma argmax_filter {f : α → γ} {p : α → Bool} {l : List α} {a : α} (h : l.argmax f = some a)
    (ha : p a = true) : (l.filter p).argmax f = some a := by
  induction l using List.reverseRecOn generalizing a with
  | nil => simp at h
  | append_singleton l b ih =>
    rw [List.argmax_concat] at h
    rw [List.filter_append, List.filter_singleton]
    cases hm : l.argmax f with
    | none =>
      obtain rfl : l = [] := List.argmax_eq_none.mp hm
      simp only [hm] at h
      obtain rfl := Option.some.inj h
      simp [ha]
    | some c =>
      simp only [hm] at h
      split_ifs at h with hlt
      · obtain rfl := Option.some.inj h
        simp only [ha, cond_true, List.argmax_concat]
        cases hd : (l.filter p).argmax f with
        | none => rfl
        | some d =>
          have hdc : f d ≤ f c := List.le_of_mem_argmax (List.mem_of_mem_filter (List.argmax_mem hd)) hm
          simp only [if_pos (hdc.trans_lt hlt)]
      · obtain rfl := Option.some.inj h
        cases hb : p b with
        | false => simpa [hb] using ih hm ha
        | true =>
          simp only [cond_true, List.argmax_concat, ih hm ha, if_neg hlt]

end Argmax

end CausalEngine.Foundations
