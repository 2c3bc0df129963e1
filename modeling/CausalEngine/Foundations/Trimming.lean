import Mathlib.Data.List.DropRight
import Mathlib.Data.List.Infix
import Mathlib.Tactic

/-! Cutting lists: a text is trimmed at both ends and split where a mark first occurs, and of a record the last
entries are kept. -/

namespace CausalEngine.Foundations

section Trim

variable {α : Type} {p : α → Bool}

def trim (p : α → Bool) (s : List α) : List α := (s.dropWhile p).rdropWhile p

lemma rdropWhile_append_neg {a : α} (ha : p a = false) (x y : List α) :
    (x ++ a :: y).rdropWhile p = x ++ a :: y.rdropWhile p := by
  induction y using List.reverseRecOn with
  | nil => rw [List.rdropWhile_concat_neg _ _ _ (by simp [ha]), List.rdropWhile_nil]
  | append_singleton y b ih =>
    rw [← List.cons_append, ← List.append_assoc]
    by_cases hb : p b = true
    · rw [List.rdropWhile_concat_pos _ _ _ hb, List.rdropWhile_concat_pos _ _ _ hb, ih]
    · rw [List.rdropWhile_concat_neg _ _ _ hb, List.rdropWhile_concat_neg _ _ _ hb, List.append_assoc,
        List.cons_append]

lemma rdropWhile_append_pos {y : List α} (hy : ∀ a ∈ y, p a = true) (x : List α) :
    (x ++ y).rdropWhile p = x.rdropWhile p := by
  induction y using List.reverseRecOn with
  | nil => rw [List.append_nil]
  | append_singleton y b ih =>
    rw [← List.append_assoc, List.rdropWhile_concat_pos _ _ _ (hy b (by simp))]
    exact ih fun a ha => hy a (List.mem_append_left _ ha)

lemma rdropWhile_trim {s : List α} (h : trim p s = s) : s.rdropWhile p = s := by
  rw [← h, trim, List.rdropWhile_idempotent]

lemma dropWhile_trim {s : List α} (h : trim p s = s) : s.dropWhile p = s := by
  have hpre : s <+: s.dropWhile p := by
    conv_lhs => rw [← h]
    exact List.rdropWhile_prefix _ _
  exact (List.dropWhile_suffix p).eq_of_length_le hpre.length_le

lemma trim_append_pos {y : List α} (hy : ∀ a ∈ y, p a = true) (x : List α) : trim p (x ++ y) = trim p x := by
  rw [trim, trim, List.dropWhile_append]
  split_ifs with hx
  · have hx' : x.dropWhile p = [] := List.isEmpty_iff.mp hx
    rw [hx', List.dropWhile_eq_nil_iff.mpr hy]
  · exact rdropWhile_append_pos hy _

lemma trim_rdropWhile {q : α → Bool} (hq : ∀ a, q a = true → p a = true) (s : List α) :
    trim p (s.rdropWhile q) = trim p s := by
  have hrest : ∀ a ∈ s.rtakeWhile q, p a = true := fun a ha => hq a (List.mem_rtakeWhile_imp ha)
  conv_rhs => rw [← List.rdropWhile_append_rtakeWhile (p := q) (l := s)]
  rw [trim_append_pos hrest]

lemma trim_cons {x : List α} (hx : ∀ a ∈ x, p a = true) {a : α} (ha : p a = false) (y : List α) :
    trim p (x ++ a :: y) = a :: y.rdropWhile p := by
  rw [trim, List.dropWhile_append_of_pos hx, List.dropWhile_cons_of_neg (by simp [ha])]
  exact rdropWhile_append_neg ha [] y

lemma trim_ends {a b : α} (ha : p a = false) (hb : p b = false) (s : List α) :
    trim p (a :: (s ++ [b])) = a :: (s ++ [b]) := by
  rw [← List.nil_append (a :: (s ++ [b])), trim_cons (by simp) ha, List.rdropWhile_concat_neg _ _ _ (by simp [hb])]
  rfl

lemma last_of_trim {s : List α} (h : trim p s = s) (hs : s ≠ []) : ∃ t b, s = t ++ [b] ∧ p b = false := by
  obtain ⟨t, b, rfl⟩ := (List.eq_nil_or_concat' s).resolve_left hs
  refine ⟨t, b, rfl, ?_⟩
  by_contra hb
  have htrim := rdropWhile_trim h
  rw [List.rdropWhile_concat_pos _ _ _ (by simpa using hb)] at htrim
  have hlen := (List.rdropWhile_prefix p t).length_le
  rw [htrim, List.length_append, List.length_singleton] at hlen
  omega

lemma head_of_trim {s : List α} (h : trim p s = s) (hs : s ≠ []) : ∃ a t, s = a :: t ∧ p a = false := by
  obtain ⟨a, t, rfl⟩ := List.exists_cons_of_ne_nil hs
  refine ⟨a, t, rfl, ?_⟩
  by_contra ha
  have htrim := dropWhile_trim h
  rw [List.dropWhile_cons_of_pos (by simpa using ha)] at htrim
  have hlen := (List.dropWhile_suffix p (l := t)).length_le
  rw [htrim, List.length_cons] at hlen
  omega

lemma trim_of_forall {s : List α} (h : ∀ a ∈ s, p a = false) : trim p s = s := by
  cases s with
  | nil => rfl
  | cons a s =>
    have hrest : s.rdropWhile p = s := by
      rw [List.rdropWhile_eq_self_iff]
      intro hs
      simp [h _ (List.mem_cons_of_mem a (List.getLast_mem hs))]
    rw [← List.nil_append (a :: s), trim_cons (by simp) (h a List.mem_cons_self), hrest, List.nil_append]

lemma trim_padded {s x y : List α} (hs : trim p s = s) (hx : ∀ a ∈ x, p a = true) (hy : ∀ a ∈ y, p a = true) :
    trim p (x ++ s ++ y) = s := by
  rw [trim_append_pos hy, trim, List.dropWhile_append_of_pos hx]
  exact hs

end Trim

section Index

variable {α : Type}

lemma pair_infix_append {a b : α} {s t : List α} (hs : ¬ [a, b] <:+: s) (ht : ¬ [a, b] <:+: t)
    (hjoin : t.head? ≠ some b) : ¬ [a, b] <:+: s ++ t := by
  intro h
  rcases List.infix_append_iff_ne_nil.mp h with h | h | ⟨x, y, hx, hy, hxy, -, hpre⟩
  · exact hs h
  · exact ht h
  · obtain ⟨c, x, rfl⟩ := List.exists_cons_of_ne_nil hx
    obtain ⟨d, y, rfl⟩ := List.exists_cons_of_ne_nil hy
    have hlen : x.length + y.length = 0 := by
      have h := congrArg List.length hxy
      simp only [List.length_cons, List.length_append, List.length_nil] at h
      omega
    obtain rfl : x = [] := List.eq_nil_of_length_eq_zero (by omega)
    obtain rfl : y = [] := List.eq_nil_of_length_eq_zero (by omega)
    obtain ⟨rfl, rfl⟩ : a = c ∧ b = d := by simpa using hxy
    obtain ⟨u, rfl⟩ := hpre
    exact hjoin rfl

variable [DecidableEq α]

def index (mark : List α) : List α → Option ℕ
  | [] => if mark = [] then some 0 else none
  | a :: s => if mark.isPrefixOf (a :: s) then some 0 else (index mark s).map (· + 1)

lemma index_eq_none {mark s : List α} (h : ¬ mark <:+: s) : index mark s = none := by
  induction s with
  | nil =>
    rw [index, if_neg]
    rintro rfl
    exact h (List.infix_refl _)
  | cons a s ih =>
    have hpre : ¬ mark.isPrefixOf (a :: s) = true := fun hc => h (List.isPrefixOf_iff_prefix.mp hc).isInfix
    rw [index, if_neg hpre, ih fun hc => h (hc.trans (List.suffix_cons a s).isInfix)]
    rfl

lemma index_first {mark : List α} (hmark : mark ≠ []) (s t : List α)
    (h : ∀ x y, s = x ++ y → y ≠ [] → ¬ mark <+: y ++ (mark ++ t)) : index mark (s ++ (mark ++ t)) = some s.length := by
  induction s with
  | nil =>
    obtain ⟨a, mark, rfl⟩ := List.exists_cons_of_ne_nil hmark
    rw [List.nil_append, List.cons_append, index, if_pos]
    · rfl
    · exact List.isPrefixOf_iff_prefix.mpr (List.prefix_append _ _)
  | cons a s ih =>
    have hpre : ¬ mark.isPrefixOf (a :: (s ++ (mark ++ t))) = true := fun hc =>
      h [] (a :: s) rfl (List.cons_ne_nil a s) (List.isPrefixOf_iff_prefix.mp hc)
    have hrest := ih fun x y hxy => h (a :: x) y (by rw [hxy, List.cons_append])
    rw [List.cons_append, index, if_neg hpre, hrest, Option.map_some, List.length_cons]

lemma index_letter {a : α} {s : List α} (h : a ∉ s) (t : List α) : index [a] (s ++ a :: t) = some s.length := by
  apply index_first (List.cons_ne_nil a [])
  rintro x (_ | ⟨b, y⟩) rfl hy hpre
  · exact hy rfl
  · have hab : a = b := by simpa using hpre
    exact h (by simp [hab])

lemma index_pair {a b : α} (hab : a ≠ b) {s : List α} (h : ¬ [a, b] <:+: s) (t : List α) :
    index [a, b] (s ++ a :: b :: t) = some s.length := by
  apply index_first (List.cons_ne_nil a [b])
  rintro x (_ | ⟨c, _ | ⟨d, y⟩⟩) rfl hy hpre
  · exact hy rfl
  · obtain ⟨-, hlast⟩ : a = c ∧ b = a := by simpa using hpre
    exact hab hlast.symm
  · obtain ⟨rfl, rfl⟩ : a = c ∧ b = d := by simpa using hpre
    exact h ⟨x, y, by simp⟩

end Index

section Last

variable {α : Type}

lemma length_rtake (l : List α) (n : ℕ) : (l.rtake n).length = min n l.length := by
  rw [List.rtake, List.length_drop]
  omega

lemma rtake_of_length_le {l : List α} {n : ℕ} (h : l.length ≤ n) : l.rtake n = l := by
  rw [List.rtake, Nat.sub_eq_zero_of_le h, List.drop_zero]

lemma rtake_concat (l : List α) (a : α) (n : ℕ) : (l.rtake n ++ [a]).rtake n = (l ++ [a]).rtake n := by
  cases n with
  | zero => simp
  | succ n =>
    rw [List.rtake_concat_succ, List.rtake_concat_succ]
    simp [List.rtake_eq_reverse_take_reverse, List.take_take]

end Last

end CausalEngine.Foundations
