import CausalEngine.Foundations.OrderedMap

/-! One entry per key, folded over the items of that key: what a loop over a dictionary of accumulators computes. -/

namespace CausalEngine.Foundations

variable {α β κ : Type} [DecidableEq κ]

section Group

variable (key : β → κ) (f : Option α → β → α)

def groupInto (m : OrderedMap κ α) (l : List β) : OrderedMap κ α :=
  l.foldl (fun m x => m.set (key x) (f (m.get? (key x)) x)) m

variable {key f}

lemma groupInto_cons (m : OrderedMap κ α) (x : β) (l : List β) :
    groupInto key f m (x :: l) = groupInto key f (m.set (key x) (f (m.get? (key x)) x)) l := rfl

lemma get?_groupInto (m : OrderedMap κ α) (l : List β) (k : κ) : (groupInto key f m l).get? k =
    (l.filter fun x => key x = k).foldl (fun o x => some (f o x)) (m.get? k) := by
  induction l generalizing m with
  | nil => rfl
  | cons x l ih =>
    rw [groupInto_cons, ih, OrderedMap.get?_set]
    by_cases hk : key x = k
    · rw [List.filter_cons_of_pos (by simpa using hk), List.foldl_cons, if_pos hk.symm, hk]
    · rw [List.filter_cons_of_neg (by simpa using hk), if_neg (Ne.symm hk)]

lemma mem_keys_groupInto (m : OrderedMap κ α) (l : List β) (k : κ) :
    k ∈ (groupInto key f m l).keys ↔ k ∈ m.keys ∨ ∃ x ∈ l, key x = k := by
  induction l generalizing m with
  | nil => simp [groupInto]
  | cons x l ih =>
    rw [groupInto_cons, ih, OrderedMap.mem_keys_set]
    simp only [List.exists_mem_cons_iff, eq_comm (a := k)]
    tauto

lemma mem_keys_group (l : List β) (k : κ) : k ∈ (groupInto key f .empty l).keys ↔ ∃ x ∈ l, key x = k := by
  rw [mem_keys_groupInto]
  simp

end Group

lemma foldl_some_eq_none {f : Option α → β → α} {l : List β}
    (h : l.foldl (fun o x => some (f o x)) none = none) : l = [] := by
  rcases List.eq_nil_or_concat l with rfl | ⟨l', y, rfl⟩
  · rfl
  · simp at h

section Lists

variable {key : β → κ} {v : β → α}

def appendTo (v : β → α) (o : Option (List α)) (x : β) : List α := o.getD [] ++ [v x]

lemma foldl_appendTo (l : List β) (o : Option (List α)) :
    l.foldl (fun o x => some (appendTo v o x)) o = if l = [] then o else some (o.getD [] ++ l.map v) := by
  induction l generalizing o with
  | nil => rfl
  | cons x l ih =>
    rw [List.foldl_cons, ih, appendTo]
    cases l <;> simp

lemma get?_lists (l : List β) (k : κ) : (groupInto key (appendTo v) .empty l).get? k =
    if l.filter (fun x => key x = k) = [] then none else some ((l.filter fun x => key x = k).map v) := by
  rw [get?_groupInto, foldl_appendTo, OrderedMap.get?_empty, Option.getD_none, List.nil_append]

end Lists

section Sums

variable {K : Type} [AddCommMonoid K] {key : β → κ} {v : β → K}

def addTo (v : β → K) (o : Option K) (x : β) : K := o.getD 0 + v x

lemma foldl_addTo (l : List β) (o : Option K) :
    l.foldl (fun o x => some (addTo v o x)) o = if l = [] then o else some (o.getD 0 + (l.map v).sum) := by
  induction l generalizing o with
  | nil => rfl
  | cons x l ih =>
    rw [List.foldl_cons, ih, addTo]
    cases l with
    | nil => simp
    | cons y l => simp [add_assoc]

lemma get?_sums (l : List β) (k : κ) : (groupInto key (addTo v) .empty l).get? k =
    if ∃ x ∈ l, key x = k then some ((l.filter fun x => key x = k).map v).sum else none := by
  have hnil : (l.filter fun x => key x = k) = [] ↔ ¬ ∃ x ∈ l, key x = k := by
    simp [List.filter_eq_nil_iff]
  rw [get?_groupInto, foldl_addTo, OrderedMap.get?_empty, Option.getD_none, zero_add]
  by_cases h : ∃ x ∈ l, key x = k
  · rw [if_neg (fun hn => hnil.mp hn h), if_pos h]
  · rw [if_pos (hnil.mpr h), if_neg h]

private lemma sum_assign (P : κ → Bool) {l : List (κ × K)} (h : (l.map Prod.fst).Nodup) (k : κ) (w : K) :
    (((OrderedMap.assign k (((l.lookup k).getD 0) + w) l).filter fun e => P e.1).map Prod.snd).sum =
      ((l.filter fun e => P e.1).map Prod.snd).sum + if P k then w else 0 := by
  induction l with
  | nil => cases hp : P k <;> simp [OrderedMap.assign, hp]
  | cons e l ih =>
    obtain ⟨j, u⟩ := e
    rw [List.map_cons, List.nodup_cons] at h
    rw [OrderedMap.assign]
    by_cases hj : j = k
    · subst hj
      cases hp : P j <;> simp [hp, add_right_comm]
    · have hlookup : ((j, u) :: l).lookup k = l.lookup k := by
        simp [List.lookup_cons, beq_eq_false_iff_ne.mpr (Ne.symm hj)]
      rw [if_neg hj, hlookup]
      cases hp : P j
      · rw [List.filter_cons_of_neg (by simp [hp]), List.filter_cons_of_neg (by simp [hp]), ih h.2]
      · rw [List.filter_cons_of_pos (by simpa using hp), List.filter_cons_of_pos (by simpa using hp), List.map_cons,
          List.sum_cons, ih h.2, List.map_cons, List.sum_cons, add_assoc]

variable (key v) in
lemma sum_sums (P : κ → Bool) (m : OrderedMap κ K) (l : List β) :
    (((groupInto key (addTo v) m l).entries.filter fun e => P e.1).map Prod.snd).sum =
      ((m.entries.filter fun e => P e.1).map Prod.snd).sum + ((l.filter fun x => P (key x)).map v).sum := by
  induction l generalizing m with
  | nil => simp [groupInto]
  | cons x l ih =>
    have hstep : (((m.set (key x) (addTo v (m.get? (key x)) x)).entries.filter fun e => P e.1).map Prod.snd).sum =
        ((m.entries.filter fun e => P e.1).map Prod.snd).sum + if P (key x) then v x else 0 :=
      sum_assign P m.nodup (key x) (v x)
    rw [groupInto_cons, ih, hstep, add_assoc]
    cases hp : P (key x)
    · rw [List.filter_cons_of_neg (by simp [hp])]
      simp
    · rw [List.filter_cons_of_pos (by simpa using hp), List.map_cons, List.sum_cons]
      simp

end Sums

section Records

variable {K : Type} [LinearOrder K] {mk : β → α} {level : α → K} {score : β → K} {rho : K → K}

def beat (mk : β → α) (level : α → K) (score : β → K) (o : Option α) (x : β) : α :=
  o.elim (mk x) fun c => if level c < score x then mk x else c

variable (mk level score) in
lemma beat_spec (hmk : ∀ x, level (mk x) = rho (score x)) (hmono : Monotone rho) (hidem : ∀ w, rho (rho w) = rho w)
    (l : List β) {c : α} (h : l.foldl (fun o x => some (beat mk level score o x)) none = some c) :
    (∃ x ∈ l, c = mk x) ∧ ∀ x ∈ l, rho (score x) ≤ level c := by
  induction l using List.reverseRecOn generalizing c with
  | nil => cases h
  | append_singleton l x ih =>
    rw [List.foldl_append, List.foldl_cons, List.foldl_nil, Option.some.injEq] at h
    cases hl : l.foldl (fun o x => some (beat mk level score o x)) none with
    | none =>
      obtain rfl := foldl_some_eq_none hl
      obtain rfl : mk x = c := by rw [← h, beat]; rfl
      exact ⟨⟨x, by simp, rfl⟩, by simp [hmk]⟩
    | some b =>
      obtain ⟨⟨y, hy, rfl⟩, hmax⟩ := ih hl
      rw [hl, beat, Option.elim_some] at h
      split_ifs at h with hlt
      · subst h
        refine ⟨⟨x, by simp, rfl⟩, ?_⟩
        intro z hz
        rcases List.mem_append.mp hz with hz | hz
        · have hround : rho (score y) ≤ rho (score x) := by
            rw [hmk] at hlt
            have hle := hmono hlt.le
            rwa [hidem] at hle
          rw [hmk]
          exact (hmax z hz).trans (by rw [hmk]; exact hround)
        · rw [List.mem_singleton.mp hz, hmk]
      · subst h
        refine ⟨⟨y, by simp [hy], rfl⟩, ?_⟩
        intro z hz
        rcases List.mem_append.mp hz with hz | hz
        · exact hmax z hz
        · rw [List.mem_singleton.mp hz, hmk]
          rw [hmk] at hlt
          have hle := hmono (not_lt.mp hlt)
          rwa [hidem] at hle

end Records

end CausalEngine.Foundations
