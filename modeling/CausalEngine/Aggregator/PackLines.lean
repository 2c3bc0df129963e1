import CausalEngine.Aggregator.Pack

/-! What the reader makes of one line: blank lines and comments are passed over, and of any other line only its
indentation and its text up to the comment count. -/

namespace CausalEngine.Aggregator

open Foundations

variable {F : Type} {parseFloat : String → Option F} {r : Reader F}

structure Body (b : Text) : Prop where
  trimmed : trimSpace b = b
  nonempty : b ≠ []
  head : b.head? ≠ some '#'
  unmarked : ¬ [' ', '#'] <:+: b

def laid (n m : ℕ) (b : Text) : Text := List.replicate n ' ' ++ b ++ List.replicate m ' '

section Spaces

lemma isSpace_space : isSpace ' ' = true := by decide

lemma isSpace_hash : isSpace '#' = false := by decide

lemma spaces (n : ℕ) : ∀ c ∈ List.replicate n ' ', isSpace c = true := by
  intro c hc
  rw [List.eq_of_mem_replicate hc]
  exact isSpace_space

lemma trimSpace_line (raw : Text) : trimSpace (raw.rdropWhile (· = ' ')) = trimSpace raw := by
  apply trim_rdropWhile
  intro c hc
  rw [of_decide_eq_true hc]
  exact isSpace_space

lemma unmarked_spaces {b : Text} (hb : ¬ [' ', '#'] <:+: b) (m : ℕ) :
    ¬ [' ', '#'] <:+: b ++ List.replicate m ' ' := by
  apply pair_infix_append hb
  · intro h
    have hmem : '#' ∈ List.replicate m ' ' := h.subset (by simp)
    simp at hmem
  · intro h
    have hmem := List.mem_of_mem_head? h
    simp at hmem

lemma Body.cons {b : Text} (hb : Body b) : ∃ a y, b = a :: y ∧ isSpace a = false ∧ a ≠ '#' := by
  obtain ⟨a, y, rfl, ha⟩ := head_of_trim hb.trimmed hb.nonempty
  exact ⟨a, y, rfl, ha, fun hh => hb.head (congrArg some hh)⟩

end Spaces

section Skipped

lemma line_blank {w : Text} (hw : ∀ c ∈ w, isSpace c = true) : r.line parseFloat w = r := by
  have htrim : trimSpace w = [] := by
    rw [trimSpace, trim, List.dropWhile_eq_nil_iff.mpr hw]
    rfl
  rw [Reader.line, trimSpace_line, htrim]
  exact if_pos (Or.inl rfl)

lemma line_comment {w : Text} (hw : ∀ c ∈ w, isSpace c = true) (c : Text) :
    r.line parseFloat (w ++ '#' :: c) = r := by
  rw [Reader.line, trimSpace_line, trimSpace, trim_cons hw isSpace_hash]
  exact if_pos (Or.inr rfl)

end Skipped

section Content

lemma line_cons {a : Char} (ha : isSpace a = false) (hh : a ≠ '#') (n : ℕ) (y : Text) :
    r.line parseFloat (List.replicate n ' ' ++ a :: y) =
      r.content parseFloat (decide (0 < n)) (stripComment (a :: y.rdropWhile isSpace)) := by
  have hspace : a ≠ ' ' := by
    rintro rfl
    exact absurd ha (by decide)
  have hindent : hasPrefix ((List.replicate n ' ' ++ a :: y).rdropWhile (· = ' ')) " " = decide (0 < n) := by
    have hcut : (List.replicate n ' ' ++ a :: y).rdropWhile (· = ' ') =
        List.replicate n ' ' ++ a :: y.rdropWhile (· = ' ') := rdropWhile_append_neg (by simpa using hspace) _ _
    rw [hcut]
    cases n with
    | zero => simpa [hasPrefix, List.isPrefixOf] using hspace.symm
    | succ n => simp [hasPrefix, List.isPrefixOf, List.replicate_succ]
  have hhash : hasPrefix (a :: y.rdropWhile isSpace) "#" = false := by
    simpa [hasPrefix, List.isPrefixOf] using hh.symm
  rw [Reader.line, trimSpace_line, trimSpace, trim_cons (spaces n) ha, hindent, if_neg]
  simp [hhash]

lemma line_laid {b : Text} (hb : Body b) (n m : ℕ) :
    r.line parseFloat (laid n m b) = r.content parseFloat (decide (0 < n)) b := by
  obtain ⟨a, y, rfl, ha, hh⟩ := hb.cons
  have hend : a :: (y ++ List.replicate m ' ').rdropWhile isSpace = a :: y := by
    rw [rdropWhile_append_pos (spaces m), ← List.nil_append (a :: y.rdropWhile isSpace), ← rdropWhile_append_neg ha]
    exact rdropWhile_trim hb.trimmed
  rw [laid, List.append_assoc, List.cons_append, line_cons ha hh, hend, stripComment, index_eq_none hb.unmarked]
  rfl

lemma line_commented {b : Text} (hb : Body b) (n m : ℕ) (c : Text) :
    r.line parseFloat (laid n m b ++ ' ' :: '#' :: c) = r.content parseFloat (decide (0 < n)) b := by
  obtain ⟨a, y, rfl, ha, hh⟩ := hb.cons
  have hend : a :: (y ++ List.replicate m ' ' ++ ' ' :: '#' :: c).rdropWhile isSpace =
      (a :: y ++ List.replicate m ' ') ++ ' ' :: '#' :: c.rdropWhile isSpace := by
    have hmark := rdropWhile_append_neg isSpace_hash (y ++ List.replicate m ' ' ++ [' ']) c
    simp only [List.append_assoc, List.singleton_append] at hmark
    rw [List.append_assoc, hmark]
    simp
  have hcut : trimSpace (a :: y ++ List.replicate m ' ') = a :: y :=
    trim_padded hb.trimmed (x := []) (by simp) (spaces m)
  have hraw : laid n m (a :: y) ++ ' ' :: '#' :: c =
      List.replicate n ' ' ++ a :: (y ++ List.replicate m ' ' ++ ' ' :: '#' :: c) := by
    simp [laid]
  rw [hraw, line_cons ha hh, hend, stripComment,
    index_pair (by decide) (unmarked_spaces hb.unmarked m), Option.elim_some, List.take_left, hcut]

end Content

section CarriageReturn

lemma dropCR_append {a : Char} (ha : a ≠ '\r') (x y : Text) : dropCR (x ++ a :: y) = x ++ a :: dropCR y := by
  rcases List.eq_nil_or_concat' y with rfl | ⟨y, b, rfl⟩
  · rw [dropCR, if_neg]
    · rfl
    · simpa using ha
  · have hlast : x ++ a :: (y ++ [b]) = (x ++ a :: y) ++ [b] := by simp
    rw [hlast, dropCR, dropCR, List.getLast?_concat, List.getLast?_concat, List.dropLast_concat, List.dropLast_concat]
    split_ifs
    · rfl
    · simp

lemma mem_dropCR {c : Char} {w : Text} (h : c ∈ dropCR w) : c ∈ w := by
  rw [dropCR] at h
  split_ifs at h
  · exact List.mem_of_mem_dropLast h
  · exact h

lemma dropCR_laid {b : Text} (hb : Body b) (n m : ℕ) : dropCR (laid n m b) = laid n m b := by
  rw [dropCR, if_neg]
  intro hlast
  cases m with
  | zero =>
    rw [laid, List.replicate_zero, List.append_nil, List.getLast?_append_of_ne_nil _ hb.nonempty] at hlast
    obtain ⟨y, c, rfl, hc⟩ := last_of_trim hb.trimmed hb.nonempty
    rw [List.getLast?_concat] at hlast
    obtain rfl := Option.some.inj hlast
    exact absurd hc (by decide)
  | succ m =>
    rw [laid, List.replicate_succ', ← List.append_assoc, List.getLast?_concat] at hlast
    exact absurd (Option.some.inj hlast) (by decide)

end CarriageReturn

end CausalEngine.Aggregator
