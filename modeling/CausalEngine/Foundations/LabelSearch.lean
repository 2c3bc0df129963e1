import CausalEngine.Foundations.Worklist
import Mathlib.Order.Bounds.Basic

/-! Two disciplines of worklist search over ordered labels, compared with the labels that walks carry.
A search that records every improvement ends with the greatest label of each node; one that records the
first label it meets does so where the shortest walks are also the best. -/

namespace CausalEngine.Foundations.Search

variable {ν β : Type} (S : Search ν β)

inductive Carries (x : ν × β) : ℕ → ν × β → Prop
  | start : Carries x 0 x
  | step {n y c} : Carries x n y → c ∈ S.expand y → Carries x (n + 1) c

variable [DecidableEq ν] {S} {x : ν × β}

lemma loop_carried (good : ν × β → Prop) (hgood : ∀ m c, S.admits m c = true → good c) {n : ℕ}
    {m r : OrderedMap ν β} (h : S.loop n [x] m = some r) {u : ν} {b : β} (hr : r.get? u = some b) :
    m.get? u = some b ∨ ∃ k, S.Carries x (k + 1) (u, b) ∧ good (u, b) := by
  revert u b
  apply S.loop_invariant (Q := fun y => ∃ k, S.Carries x k y) ?_ (fun {u b} hu => Or.inl hu) ?_ h
  · rintro y r ⟨k, hy⟩ hr c hc ha
    have hstep := Carries.step hy hc
    refine ⟨?_, k + 1, hstep⟩
    intro u b hu
    rw [OrderedMap.get?_set] at hu
    split_ifs at hu with huc
    · obtain rfl := Option.some.inj hu
      subst huc
      exact Or.inr ⟨k, hstep, hgood r c ha⟩
    · exact hr hu
  · intro y hy
    rw [List.mem_singleton.mp hy]
    exact ⟨0, .start⟩

/-- Goodness can only be lost along a walk, and a better label stays better over the same arc. -/
structure Decaying {δ : Type} [LinearOrder δ] (S : Search ν β) (value : β → δ) (good : δ → Prop) : Prop where
  upward : ∀ v w, v ≤ w → good v → good w
  inherited : ∀ y, ∀ c ∈ S.expand y, good (value c.2) → good (value y.2)
  monotone : ∀ u b b', value b ≤ value b' →
    ∀ c ∈ S.expand (u, b), ∃ d ∈ S.expand (u, b'), d.1 = c.1 ∧ value c.2 ≤ value d.2

section Improving

variable [LinearOrder β] {good : β → Prop}

structure Improving (S : Search ν β) (good : β → Prop) : Prop extends S.Decaying id good where
  admits : ∀ m c, S.admits m c = true ↔ good c.2 ∧ ∀ v, m.get? c.1 = some v → v < c.2

def Covers (m : OrderedMap ν β) (c : ν × β) : Prop := ∃ v, m.get? c.1 = some v ∧ c.2 ≤ v

def Closed (S : Search ν β) (good : β → Prop) (m : OrderedMap ν β) (y : ν × β) : Prop :=
  ∀ c ∈ S.expand y, good c.2 → Covers m c

lemma Covers.set {m : OrderedMap ν β} {c d : ν × β} (hd : ∀ v, m.get? d.1 = some v → v < d.2)
    (h : Covers m c) : Covers (m.set d.1 d.2) c := by
  obtain ⟨v, hv, hc⟩ := h
  by_cases hcd : c.1 = d.1
  · refine ⟨d.2, by simp [hcd], hc.trans (hd v ?_).le⟩
    rwa [← hcd]
  · exact ⟨v, by simpa [hcd] using hv, hc⟩

variable (hS : S.Improving good)
include hS

lemma Improving.visit (st : OrderedMap ν β × List (ν × β)) (d : ν × β) :
    (∀ c, Covers st.1 c → Covers (S.visit st d).1 c) ∧ (∀ y ∈ st.2, y ∈ (S.visit st d).2) ∧
      (good d.2 → Covers (S.visit st d).1 d) ∧
      ∀ u v, (S.visit st d).1.get? u = some v → st.1.get? u = some v ∨ (u, v) ∈ (S.visit st d).2 := by
  simp only [Search.visit]
  split_ifs with ha
  · obtain ⟨-, hlt⟩ := (hS.admits st.1 d).mp ha
    refine ⟨fun c hc => hc.set hlt, fun y hy => List.mem_append_left _ hy, ?_, ?_⟩
    · exact fun _ => ⟨d.2, by simp, le_rfl⟩
    · intro u v huv
      rw [OrderedMap.get?_set] at huv
      split_ifs at huv with hu
      · obtain rfl := Option.some.inj huv
        subst hu
        exact Or.inr (List.mem_append_right _ List.mem_cons_self)
      · exact Or.inl huv
  · refine ⟨fun c hc => hc, fun y hy => hy, ?_, fun u v huv => Or.inl huv⟩
    intro hg
    by_contra hn
    apply ha
    refine (hS.admits st.1 d).mpr ⟨hg, ?_⟩
    intro v hv
    by_contra hle
    exact hn ⟨v, hv, not_lt.mp hle⟩

lemma Improving.visits (cs : List (ν × β)) (st : OrderedMap ν β × List (ν × β)) :
    let st' := cs.foldl S.visit st
    (∀ c, Covers st.1 c → Covers st'.1 c) ∧ (∀ y ∈ st.2, y ∈ st'.2) ∧
      (∀ c ∈ cs, good c.2 → Covers st'.1 c) ∧
      ∀ u v, st'.1.get? u = some v → st.1.get? u = some v ∨ (u, v) ∈ st'.2 := by
  induction cs generalizing st with
  | nil => exact ⟨fun c hc => hc, fun y hy => hy, by simp, fun u v h => Or.inl h⟩
  | cons d cs ih =>
    obtain ⟨hcov, hq, hcs, hnew⟩ := ih (S.visit st d)
    obtain ⟨hcov', hq', hd', hnew'⟩ := hS.visit st d
    refine ⟨fun c hc => hcov c (hcov' c hc), fun y hy => hq y (hq' y hy), ?_, ?_⟩
    · intro c hc hg
      rcases List.mem_cons.mp hc with rfl | hc
      · exact hcov _ (hd' hg)
      · exact hcs c hc hg
    · intro u v huv
      rcases hnew u v huv with h | h
      · exact (hnew' u v h).imp_right (hq _)
      · exact Or.inr h

lemma Improving.closed {n : ℕ} {r : OrderedMap ν β} (h : S.loop n [x] .empty = some r) :
    Closed S good r x ∧ ∀ u v, r.get? u = some v → Closed S good r (u, v) := by
  have hI : (x ∈ ([] : List (ν × β)) ∨ Closed S good r x) ∧
      ∀ u v, r.get? u = some v → (u, v) ∈ ([] : List (ν × β)) ∨ Closed S good r (u, v) := by
    apply S.loop_state (I := fun m queue => (x ∈ queue ∨ Closed S good m x) ∧
      ∀ u v, m.get? u = some v → (u, v) ∈ queue ∨ Closed S good m (u, v)) ?_ (by simp) h
    rintro m y queue ⟨hx, hm⟩
    obtain ⟨hcov, hq, hcs, hnew⟩ := hS.visits (S.expand y) (m, queue)
    -- what was queued is queued still, or it is the entry just expanded
    have hkeep : ∀ z, (z ∈ y :: queue ∨ Closed S good m z) →
        z ∈ ((S.expand y).foldl S.visit (m, queue)).2 ∨
          Closed S good ((S.expand y).foldl S.visit (m, queue)).1 z := by
      rintro z (hz | hz)
      · rcases List.mem_cons.mp hz with rfl | hz
        · exact Or.inr hcs
        · exact Or.inl (hq z hz)
      · exact Or.inr fun c hc hg => hcov c (hz c hc hg)
    refine ⟨hkeep x hx, ?_⟩
    intro u v huv
    rcases hnew u v huv with huv | huv
    · exact hkeep _ (hm u v huv)
    · exact Or.inl huv
  simpa using hI

lemma Improving.covers {n k : ℕ} {r : OrderedMap ν β} (h : S.loop n [x] .empty = some r) {c : ν × β}
    (hc : S.Carries x (k + 1) c) (hg : good c.2) : Covers r c := by
  obtain ⟨hx, hr⟩ := hS.closed h
  induction k generalizing c with
  | zero =>
    cases hc with
    | step hy hc =>
      cases hy
      exact hx c hc hg
  | succ k ih =>
    cases hc with
    | @step _ y _ hy hc =>
      obtain ⟨v, hv, hle⟩ := ih hy (hS.inherited y c hc hg)
      obtain ⟨d, hd, hdc, hcd⟩ := hS.monotone y.1 y.2 v hle c hc
      obtain ⟨w, hw, hdw⟩ := hr y.1 v hv d hd (hS.upward _ _ hcd hg)
      exact ⟨w, hdc ▸ hw, hcd.trans hdw⟩

theorem Improving.greatest {n : ℕ} {r : OrderedMap ν β} (h : S.loop n [x] .empty = some r) (u : ν) (v : β) :
    r.get? u = some v ↔ IsGreatest {w | good w ∧ ∃ k, S.Carries x (k + 1) (u, w)} v := by
  have hbest : ∀ v, r.get? u = some v → IsGreatest {w | good w ∧ ∃ k, S.Carries x (k + 1) (u, w)} v := by
    intro v hv
    obtain ⟨k, hk, hg⟩ := (loop_carried (fun c => good c.2) (fun m c ha => ((hS.admits m c).mp ha).1) h
      hv).resolve_left (by simp)
    refine ⟨⟨hg, k, hk⟩, ?_⟩
    rintro w ⟨hw, j, hj⟩
    obtain ⟨v', hv', hle⟩ := hS.covers h hj hw
    rw [hv] at hv'
    rwa [Option.some.inj hv']
  refine ⟨hbest v, ?_⟩
  rintro ⟨⟨hg, k, hk⟩, hmax⟩
  obtain ⟨v', hv', -⟩ := hS.covers h hk hg
  rw [hv', IsGreatest.unique (hbest v' hv') ⟨⟨hg, k, hk⟩, hmax⟩]

end Improving

section FirstVisit

variable {δ : Type} [LinearOrder δ] {value : β → δ} {good : δ → Prop}

structure FirstVisit (S : Search ν β) (value : β → δ) (good : δ → Prop) : Prop extends
    S.Decaying value good where
  admits : ∀ m c, S.admits m c = true ↔ c.1 ∉ m.keys ∧ good (value c.2)

structure Shortest (S : Search ν β) (value : β → δ) (good : δ → Prop) (x : ν × β) (k : ℕ) (c : ν × β) :
    Prop where
  carried : S.Carries x k c
  admitted : good (value c.2)
  least : ∀ j b, S.Carries x j (c.1, b) → good (value b) → k ≤ j

def ShortestBest (S : Search ν β) (value : β → δ) (good : δ → Prop) (x : ν × β) : Prop :=
  ∀ k c, S.Shortest value good x k c → ∀ j b, S.Carries x j (c.1, b) → good (value b) → value b ≤ value c.2

omit [DecidableEq ν] [LinearOrder δ] in
lemma exists_shortest {k : ℕ} {u : ν} {b : β} (hc : S.Carries x k (u, b)) (hg : good (value b)) :
    ∃ j ≤ k, ∃ b', S.Shortest value good x j (u, b') := by
  classical
  have hex : ∃ j b', S.Carries x j (u, b') ∧ good (value b') := ⟨k, b, hc, hg⟩
  obtain ⟨b', hb', hg'⟩ := Nat.find_spec hex
  refine ⟨Nat.find hex, Nat.find_min' hex ⟨b, hc, hg⟩, b', hb', hg', ?_⟩
  intro j d hd hgd
  exact Nat.find_min' hex ⟨d, hd, hgd⟩

omit [DecidableEq ν] [LinearOrder δ] in
lemma Shortest.hops_eq {j k : ℕ} {u : ν} {b b' : β} (h : S.Shortest value good x j (u, b))
    (h' : S.Shortest value good x k (u, b')) : j = k :=
  le_antisymm (h.least k b' h'.carried h'.admitted) (h'.least j b h.carried h.admitted)

section Levels

variable (hS : S.Decaying value good) (hbest : S.ShortestBest value good x)
include hS hbest

omit [DecidableEq ν] in
lemma Shortest.predecessor {k : ℕ} {c : ν × β} (h : S.Shortest value good x (k + 1) c) :
    ∃ y, S.Shortest value good x k y ∧ c ∈ S.expand y := by
  obtain ⟨hc, hg, hleast⟩ := h
  cases hc with
  | @step _ y _ hy hc =>
    refine ⟨y, ⟨hy, hS.inherited y c hc hg, ?_⟩, hc⟩
    intro j b hb hgb
    -- a shorter good walk to `y` would be at least as good there, and so give a shorter one to `c`
    obtain ⟨i, hij, b', hs⟩ := exists_shortest hb hgb
    have hle := hbest i _ hs k y.2 hy (hS.inherited y c hc hg)
    obtain ⟨d, hd, hdc, hcd⟩ := hS.monotone y.1 y.2 b' hle c hc
    have hk := hleast (i + 1) d.2 (hdc ▸ hs.carried.step hd) (hS.upward _ _ hcd hg)
    omega

variable {m : OrderedMap ν β}

lemma reached_succ {k : ℕ} (hrec : ∀ u b, m.get? u = some b → ∃ j, S.Shortest value good x j (u, b))
    (hk : ∀ c, S.Shortest value good x k c → c.1 ∈ m.keys)
    (hclosed : ∀ y, m.get? y.1 = some y.2 → S.Shortest value good x k y →
      ∀ c ∈ S.expand y, good (value c.2) → c.1 ∈ m.keys) {c : ν × β}
    (hc : S.Shortest value good x (k + 1) c) : c.1 ∈ m.keys := by
  obtain ⟨y, hy, hyc⟩ := hc.predecessor hS hbest
  obtain ⟨b, hb⟩ := (m.mem_keys y.1).mp (hk y hy)
  obtain ⟨j, hj⟩ := hrec y.1 b hb
  obtain rfl := hj.hops_eq hy
  obtain ⟨d, hd, hdc, hcd⟩ := hS.monotone y.1 y.2 b (hbest j _ hj j y.2 hy.carried hy.admitted) c hyc
  rw [← hdc]
  exact hclosed (y.1, b) hb hj d hd (hS.upward _ _ hcd hc.admitted)

end Levels

/-- The queue holds what is left of one level and then what is known of the next. -/
structure Level (S : Search ν β) (value : β → δ) (good : δ → Prop) (x : ν × β) (d : ℕ)
    (m : OrderedMap ν β) (now next : List (ν × β)) : Prop where
  recorded : ∀ u b, m.get? u = some b → ∃ k, S.Shortest value good x k (u, b)
  reached : ∀ k ≤ d, ∀ c, S.Shortest value good x k c → c.1 ∈ m.keys
  atLevel : ∀ y ∈ now, S.Shortest value good x d y
  atNext : ∀ y ∈ next, S.Shortest value good x (d + 1) y
  closed : ∀ y, m.get? y.1 = some y.2 → y ∈ now ++ next ∨
    ∀ c ∈ S.expand y, good (value c.2) → c.1 ∈ m.keys

lemma FirstVisit.visits (hS : S.FirstVisit value good) (cs : List (ν × β))
    (st : OrderedMap ν β × List (ν × β)) :
    let st' := cs.foldl S.visit st
    ∃ new, st'.2 = st.2 ++ new ∧ (∀ c ∈ new, c ∈ cs ∧ good (value c.2) ∧ c.1 ∉ st.1.keys) ∧
      (∀ u ∈ st.1.keys, u ∈ st'.1.keys) ∧ (∀ c ∈ cs, good (value c.2) → c.1 ∈ st'.1.keys) ∧
      ∀ u b, st'.1.get? u = some b → st.1.get? u = some b ∨ (u, b) ∈ new := by
  induction cs generalizing st with
  | nil => exact ⟨[], by simp⟩
  | cons d cs ih =>
    obtain ⟨new, hq, hnew, hmono, hcs, hrec⟩ := ih (S.visit st d)
    by_cases ha : S.admits st.1 d = true
    · obtain ⟨hd, hg⟩ := (hS.admits st.1 d).mp ha
      simp only [visit, if_pos ha] at hq hnew hmono hcs hrec
      simp only [List.foldl_cons, visit, if_pos ha]
      refine ⟨d :: new, by simpa using hq, ?_, ?_, ?_, ?_⟩
      · intro c hc
        rcases List.mem_cons.mp hc with rfl | hc
        · exact ⟨List.mem_cons_self, hg, hd⟩
        · obtain ⟨hc, hgc, hk⟩ := hnew c hc
          exact ⟨List.mem_cons_of_mem _ hc, hgc, fun h => hk ((st.1.mem_keys_set _ _ _).mpr (Or.inr h))⟩
      · exact fun u hu => hmono u ((st.1.mem_keys_set _ _ _).mpr (Or.inr hu))
      · intro c hc hgc
        rcases List.mem_cons.mp hc with rfl | hc
        · exact hmono _ ((st.1.mem_keys_set _ _ _).mpr (Or.inl rfl))
        · exact hcs c hc hgc
      · intro u b hu
        rcases hrec u b hu with hu | hu
        · rw [OrderedMap.get?_set] at hu
          split_ifs at hu with hud
          · obtain rfl := Option.some.inj hu
            exact Or.inr (hud ▸ List.mem_cons_self)
          · exact Or.inl hu
        · exact Or.inr (List.mem_cons_of_mem _ hu)
    · have hv : S.visit st d = st := if_neg ha
      rw [hv] at hq hnew hmono hcs hrec
      rw [List.foldl_cons, hv]
      refine ⟨new, hq, fun c hc => ⟨List.mem_cons_of_mem _ (hnew c hc).1, (hnew c hc).2⟩, hmono, ?_, hrec⟩
      intro c hc hgc
      rcases List.mem_cons.mp hc with rfl | hc
      · by_contra hk
        exact ha ((hS.admits st.1 c).mpr ⟨fun h => hk (hmono _ h), hgc⟩)
      · exact hcs c hc hgc

section Search

variable (hS : S.FirstVisit value good) (hbest : S.ShortestBest value good x)
include hS hbest

lemma Level.advance {d : ℕ} {m : OrderedMap ν β} {next : List (ν × β)}
    (h : Level S value good x d m [] next) : Level S value good x (d + 1) m next [] := by
  refine ⟨h.recorded, ?_, h.atNext, by simp, by simpa using h.closed⟩
  intro k hk c hc
  rcases Nat.le_succ_iff.mp hk with hk | rfl
  · exact h.reached k hk c hc
  · apply reached_succ hS.toDecaying hbest h.recorded (h.reached d le_rfl) ?_ hc
    intro y hy hyd
    refine (h.closed y hy).resolve_left ?_
    intro hmem
    have hd := hyd.hops_eq (h.atNext y hmem)
    omega

omit hbest in
lemma Level.expand {d : ℕ} {m : OrderedMap ν β} {y : ν × β} {now next : List (ν × β)}
    (h : Level S value good x d m (y :: now) next) :
    let st := (S.expand y).foldl S.visit (m, now ++ next)
    ∃ next', st.2 = now ++ next' ∧ Level S value good x d st.1 now next' := by
  obtain ⟨new, hq, hnew, hmono, hcs, hrec⟩ := hS.visits (S.expand y) (m, now ++ next)
  have hy := h.atLevel y List.mem_cons_self
  have hshort : ∀ c ∈ new, S.Shortest value good x (d + 1) c := by
    intro c hc
    obtain ⟨hc, hg, hk⟩ := hnew c hc
    refine ⟨hy.carried.step hc, hg, ?_⟩
    intro j b hb hgb
    by_contra hj
    obtain ⟨i, hi, b', hs⟩ := exists_shortest hb hgb
    exact hk (h.reached i (by omega) (c.1, b') hs)
  refine ⟨next ++ new, by rw [hq, List.append_assoc], ?_, ?_, ?_, ?_, ?_⟩
  · intro u b hu
    rcases hrec u b hu with hu | hu
    · exact h.recorded u b hu
    · exact ⟨d + 1, hshort _ hu⟩
  · exact fun k hk c hc => hmono _ (h.reached k hk c hc)
  · exact fun z hz => h.atLevel z (List.mem_cons_of_mem _ hz)
  · intro z hz
    rcases List.mem_append.mp hz with hz | hz
    · exact h.atNext z hz
    · exact hshort z hz
  · intro z hz
    rcases hrec z.1 z.2 hz with hz | hz
    · rcases h.closed z hz with hmem | hcl
      · rcases List.mem_append.mp hmem with hmem | hmem
        · rcases List.mem_cons.mp hmem with rfl | hmem
          · exact Or.inr hcs
          · exact Or.inl (List.mem_append_left _ hmem)
        · exact Or.inl (List.mem_append_right _ (List.mem_append_left _ hmem))
      · exact Or.inr fun c hc hg => hmono _ (hcl c hc hg)
    · exact Or.inl (List.mem_append_right _ (List.mem_append_right _ hz))

theorem FirstVisit.shortest (hx : good (value x.2)) {n : ℕ} {r : OrderedMap ν β}
    (h : S.loop n [x] (.ofList [x]) = some r) :
    (∀ u b, r.get? u = some b → ∃ k, S.Shortest value good x k (u, b)) ∧
      ∀ k c, S.Carries x k c → good (value c.2) → c.1 ∈ r.keys := by
  have hstart : S.Shortest value good x 0 x := ⟨.start, hx, fun _ _ _ _ => Nat.zero_le _⟩
  have hget : ∀ u b, (OrderedMap.ofList [x]).get? u = some b → (u, b) = x := by
    intro u b hu
    exact List.mem_singleton.mp (OrderedMap.mem_entries_ofList ((OrderedMap.get?_eq_some _ u b).mp hu))
  have hlevel : ∃ d now next, [] = now ++ next ∧ Level S value good x d r now next := by
    apply S.loop_state (I := fun m queue => ∃ d now next, queue = now ++ next ∧
      Level S value good x d m now next) ?_ ?_ h
    · rintro m y queue ⟨d, now, next, hq, hl⟩
      cases now with
      | nil =>
        obtain rfl : y :: queue = next := hq
        obtain ⟨next', hq', hl'⟩ := (hl.advance hS hbest).expand hS
        rw [List.append_nil] at hq' hl'
        exact ⟨_, _, next', hq', hl'⟩
      | cons z now =>
        obtain ⟨rfl, rfl⟩ := List.cons.inj hq
        obtain ⟨next', hq', hl'⟩ := hl.expand hS
        exact ⟨_, _, next', hq', hl'⟩
    · refine ⟨0, [x], [], rfl, ?_, ?_, ?_, by simp, ?_⟩
      · intro u b hu
        exact ⟨0, (hget u b hu).symm ▸ hstart⟩
      · intro k hk c hc
        obtain rfl : k = 0 := Nat.le_zero.mp hk
        have hc' := hc.carried
        cases hc'
        exact (OrderedMap.mem_keys_ofList _ _).mpr (by simp)
      · intro y hy
        exact (List.mem_singleton.mp hy).symm ▸ hstart
      · intro y hy
        exact Or.inl (by simp [← hget y.1 y.2 hy])
  obtain ⟨d, now, next, hq, hl⟩ := hlevel
  obtain ⟨rfl, rfl⟩ := List.append_eq_nil_iff.mp hq.symm
  have hreach : ∀ k c, S.Shortest value good x k c → c.1 ∈ r.keys := by
    intro k
    induction k with
    | zero => exact hl.reached 0 (Nat.zero_le _)
    | succ k ih =>
      intro c hc
      apply reached_succ hS.toDecaying hbest hl.recorded ih ?_ hc
      exact fun y hy _ => (hl.closed y hy).resolve_left (by simp)
  refine ⟨hl.recorded, ?_⟩
  intro k c hc hg
  obtain ⟨j, -, b, hs⟩ := exists_shortest (b := c.2) hc hg
  exact hreach j (c.1, b) hs

end Search

end FirstVisit

end CausalEngine.Foundations.Search
