import CausalEngine.Foundations.OrderedMap

/-! Worklist search: entries are taken from the front of a queue, their labelled successors are
recorded and queued when the labels recorded so far admit them. The loop gives `none` when its fuel
runs out before the queue does. -/

namespace CausalEngine.Foundations

structure Search (ν β : Type) where
  expand : ν × β → List (ν × β)
  admits : OrderedMap ν β → ν × β → Bool

namespace Search

variable {ν β : Type} [DecidableEq ν] (S T : Search ν β)

def visit (st : OrderedMap ν β × List (ν × β)) (c : ν × β) : OrderedMap ν β × List (ν × β) :=
  if S.admits st.1 c then (st.1.set c.1 c.2, st.2 ++ [c]) else st

def loop : ℕ → List (ν × β) → OrderedMap ν β → Option (OrderedMap ν β)
  | _, [], m => some m
  | 0, _ :: _, _ => none
  | n + 1, x :: queue, m =>
    let st := (S.expand x).foldl S.visit (m, queue)
    loop n st.2 st.1

lemma loop_mono {n k : ℕ} (hk : n ≤ k) {queue : List (ν × β)} {m r : OrderedMap ν β}
    (h : S.loop n queue m = some r) : S.loop k queue m = some r := by
  induction n generalizing k queue m with
  | zero =>
    cases queue with
    | nil => cases k <;> simpa only [loop] using h
    | cons x queue => simp [loop] at h
  | succ n ih =>
    cases queue with
    | nil => cases k <;> simpa only [loop] using h
    | cons x queue =>
      obtain ⟨k, rfl⟩ : ∃ j, k = j + 1 := ⟨k - 1, by omega⟩
      simp only [loop] at h ⊢
      exact ih (by omega) h

lemma loop_unique {n k : ℕ} {queue : List (ν × β)} {m r s : OrderedMap ν β}
    (hr : S.loop n queue m = some r) (hs : S.loop k queue m = some s) : r = s := by
  have hr' := S.loop_mono (le_max_left n k) hr
  have hs' := S.loop_mono (le_max_right n k) hs
  exact Option.some.inj (hr'.symm.trans hs')

lemma loop_congr (h : ∀ x st, (S.expand x).foldl S.visit st = (T.expand x).foldl T.visit st)
    (n : ℕ) (queue : List (ν × β)) (m : OrderedMap ν β) : S.loop n queue m = T.loop n queue m := by
  induction n generalizing queue m with
  | zero => cases queue <;> rfl
  | succ n ih =>
    cases queue with
    | nil => rfl
    | cons x queue => simp only [loop, h, ih]

lemma visits_refused {cs : List (ν × β)} (h : ∀ m, ∀ c ∈ cs, S.admits m c = false)
    (st : OrderedMap ν β × List (ν × β)) : cs.foldl S.visit st = st := by
  induction cs with
  | nil => rfl
  | cons c cs ih =>
    have hc : S.visit st c = st := by simp [visit, h st.1 c List.mem_cons_self]
    rw [List.foldl_cons, hc]
    exact ih (fun m d hd => h m d (List.mem_cons_of_mem _ hd))

section Invariant

variable {P : OrderedMap ν β → Prop} {Q : ν × β → Prop}

lemma visits_invariant (cs : List (ν × β))
    (hadd : ∀ m, P m → ∀ c ∈ cs, S.admits m c = true → P (m.set c.1 c.2) ∧ Q c)
    (st : OrderedMap ν β × List (ν × β)) (hm : P st.1) (hq : ∀ x ∈ st.2, Q x) :
    P (cs.foldl S.visit st).1 ∧ ∀ x ∈ (cs.foldl S.visit st).2, Q x := by
  induction cs generalizing st with
  | nil => exact ⟨hm, hq⟩
  | cons c cs ih =>
    have hcs := fun m hp d hd => hadd m hp d (List.mem_cons_of_mem c hd)
    cases ha : S.admits st.1 c with
    | false =>
      rw [List.foldl_cons, visit, if_neg (by simp [ha])]
      exact ih hcs st hm hq
    | true =>
      obtain ⟨hp, hc⟩ := hadd _ hm c List.mem_cons_self ha
      rw [List.foldl_cons, visit, if_pos ha]
      apply ih hcs _ hp
      intro x hx
      rcases List.mem_append.mp hx with hx | hx
      · exact hq x hx
      · rwa [List.mem_singleton.mp hx]

lemma loop_invariant
    (hadd : ∀ x m, Q x → P m → ∀ c ∈ S.expand x, S.admits m c = true → P (m.set c.1 c.2) ∧ Q c)
    {n : ℕ} {queue : List (ν × β)} {m r : OrderedMap ν β} (hm : P m) (hq : ∀ x ∈ queue, Q x)
    (h : S.loop n queue m = some r) : P r := by
  induction n generalizing queue m with
  | zero =>
    cases queue with
    | nil => exact Option.some.inj h ▸ hm
    | cons x queue => simp [loop] at h
  | succ n ih =>
    cases queue with
    | nil => exact Option.some.inj h ▸ hm
    | cons x queue =>
      have hx := hq x List.mem_cons_self
      obtain ⟨hp, hq'⟩ := S.visits_invariant (S.expand x) (fun m hp => hadd x m hx hp) (m, queue) hm
        (fun y hy => hq y (List.mem_cons_of_mem _ hy))
      exact ih hp hq' h

lemma loop_state {I : OrderedMap ν β → List (ν × β) → Prop}
    (hstep : ∀ m x queue, I m (x :: queue) →
      I ((S.expand x).foldl S.visit (m, queue)).1 ((S.expand x).foldl S.visit (m, queue)).2)
    {n : ℕ} {queue : List (ν × β)} {m r : OrderedMap ν β} (hm : I m queue)
    (h : S.loop n queue m = some r) : I r [] := by
  induction n generalizing queue m with
  | zero =>
    cases queue with
    | nil => exact Option.some.inj h ▸ hm
    | cons x queue => simp [loop] at h
  | succ n ih =>
    cases queue with
    | nil => exact Option.some.inj h ▸ hm
    | cons x queue => exact ih (hstep m x queue hm) h

lemma visits_covers {cs : List (ν × β)} {c : ν × β} (hc : c ∈ cs)
    (hadm : ∀ m, S.admits m c = false → c.1 ∈ m.keys) (st : OrderedMap ν β × List (ν × β)) :
    c.1 ∈ (cs.foldl S.visit st).1.keys := by
  induction cs generalizing st with
  | nil => simp at hc
  | cons d cs ih =>
    rw [List.foldl_cons]
    rcases List.mem_cons.mp hc with rfl | hc
    · refine (S.visits_invariant (P := fun m => c.1 ∈ m.keys) (Q := fun _ => True) cs ?_ _ ?_ (by simp)).1
      · exact fun m hm d _ _ => ⟨(m.mem_keys_set d.1 c.1 d.2).mpr (Or.inr hm), trivial⟩
      · simp only [visit]
        split_ifs with ha
        · exact (st.1.mem_keys_set c.1 c.1 c.2).mpr (Or.inl rfl)
        · exact hadm _ (by simpa using ha)
    · exact ih hc _

lemma loop_covers {x : ν × β} {c : ν × β} (hc : c ∈ S.expand x)
    (hadm : ∀ m, S.admits m c = false → c.1 ∈ m.keys) {n : ℕ} {queue : List (ν × β)}
    {m r : OrderedMap ν β} (h : S.loop n (x :: queue) m = some r) : c.1 ∈ r.keys := by
  cases n with
  | zero => simp [loop] at h
  | succ n =>
    simp only [loop] at h
    apply S.loop_invariant (P := fun m => c.1 ∈ m.keys) (Q := fun _ => True) ?_ ?_ (fun _ _ => trivial) h
    · exact fun _ m _ hm d _ _ => ⟨(m.mem_keys_set d.1 c.1 d.2).mpr (Or.inr hm), trivial⟩
    · exact S.visits_covers hc hadm (m, queue)

end Invariant

section Termination

variable (static : ν × β → Bool) (good : ν × β → Prop) (potential : ν × β → ℕ)

lemma visits_potential (hstatic : ∀ m c, S.admits m c = true → static c = true)
    (cs : List (ν × β)) (st : OrderedMap ν β × List (ν × β)) :
    ((cs.foldl S.visit st).2.map potential).sum ≤
      (st.2.map potential).sum + ((cs.filter static).map potential).sum := by
  induction cs generalizing st with
  | nil => simp
  | cons c cs ih =>
    refine (ih (S.visit st c)).trans ?_
    cases ha : S.admits st.1 c with
    | false =>
      have hv : S.visit st c = st := by simp [visit, ha]
      rw [hv]
      cases hs : static c <;> simp [hs]
    | true =>
      have hs := hstatic _ _ ha
      simp [visit, ha, hs, add_assoc]

omit [DecidableEq ν] in
lemma branching_potential {N d : ℕ} (depth : ν × β → ℕ) {cs : List (ν × β)} (hlen : cs.length ≤ N)
    (hdepth : ∀ c ∈ cs, depth c < d) : (cs.map fun c => (N + 1) ^ depth c).sum < (N + 1) ^ d := by
  cases d with
  | zero =>
    have hnil : cs = [] := List.eq_nil_iff_forall_not_mem.mpr fun c hc => Nat.not_lt_zero _ (hdepth c hc)
    simp [hnil]
  | succ d =>
    have hterm : ∀ y ∈ cs.map fun c => (N + 1) ^ depth c, y ≤ (N + 1) ^ d := by
      intro y hy
      obtain ⟨c, hc, rfl⟩ := List.mem_map.mp hy
      exact Nat.pow_le_pow_right (Nat.succ_pos N) (Nat.lt_succ_iff.mp (hdepth c hc))
    calc (cs.map fun c => (N + 1) ^ depth c).sum
        ≤ cs.length * (N + 1) ^ d := by simpa using List.sum_le_card_nsmul _ _ hterm
      _ ≤ N * (N + 1) ^ d := Nat.mul_le_mul_right _ hlen
      _ < (N + 1) * (N + 1) ^ d := Nat.mul_lt_mul_of_pos_right (Nat.lt_succ_self N) (by positivity)
      _ = (N + 1) ^ (d + 1) := (pow_succ' _ _).symm

lemma loop_terminates (hstatic : ∀ m c, S.admits m c = true → static c = true)
    (hgood : ∀ x, good x → ∀ c ∈ S.expand x, good c)
    (hdrop : ∀ x, good x → (((S.expand x).filter static).map potential).sum < potential x)
    {n : ℕ} {queue : List (ν × β)} (m : OrderedMap ν β) (hq : ∀ x ∈ queue, good x)
    (hn : (queue.map potential).sum ≤ n) : ∃ r, S.loop n queue m = some r := by
  induction n generalizing queue m with
  | zero =>
    cases queue with
    | nil => exact ⟨m, rfl⟩
    | cons x queue =>
      have hx := hdrop x (hq x List.mem_cons_self)
      simp only [List.map_cons, List.sum_cons] at hn
      omega
  | succ n ih =>
    cases queue with
    | nil => exact ⟨m, rfl⟩
    | cons x queue =>
      have hx := hq x List.mem_cons_self
      have hp := S.visits_potential static potential hstatic (S.expand x) (m, queue)
      have hd := hdrop x hx
      obtain ⟨-, hq'⟩ := S.visits_invariant (P := fun _ => True) (Q := good) (S.expand x)
        (fun _ _ c hc _ => ⟨trivial, hgood x hx c hc⟩) (m, queue) trivial
        (fun y hy => hq y (List.mem_cons_of_mem _ hy))
      refine ih _ hq' ?_
      simp only [List.map_cons, List.sum_cons] at hn
      dsimp only at hp
      omega

end Termination

end Search

end CausalEngine.Foundations
