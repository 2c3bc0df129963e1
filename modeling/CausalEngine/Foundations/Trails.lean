import CausalEngine.Foundations.Worklist

/-! A search that records only the first label of each node leaves a trail behind every label: the recorded
entries that it was carried over, no two of them of the same node. -/

namespace CausalEngine.Foundations.Search

variable {ν β : Type} (S : Search ν β) (good : ν × β → Prop)

inductive Trail (x : ν × β) : List (ν × β) → Prop
  | start : Trail x [x]
  | step {y c l} : Trail x (y :: l) → c ∈ S.expand y → good c → c.1 ∉ (y :: l).map Prod.fst →
      Trail x (c :: y :: l)

lemma Trail.nodup {x : ν × β} {l : List (ν × β)} (h : S.Trail good x l) : (l.map Prod.fst).Nodup := by
  induction h with
  | start => exact List.nodup_singleton _
  | step _ _ _ hc ih => exact List.nodup_cons.mpr ⟨hc, ih⟩

variable [DecidableEq ν]

def Recorded (m : OrderedMap ν β) (y : ν × β) : Prop := m.get? y.1 = some y.2

structure Trailed (x : ν × β) (m : OrderedMap ν β) (queue : List (ν × β)) : Prop where
  trail : ∀ c, Recorded m c → ∃ l, S.Trail good x (c :: l) ∧ ∀ y ∈ c :: l, Recorded m y
  queued : ∀ y ∈ queue, Recorded m y

variable {S good} {x : ν × β}

lemma Recorded.set {m : OrderedMap ν β} {y c : ν × β} (hc : c.1 ∉ m.keys) (h : Recorded m y) :
    Recorded (m.set c.1 c.2) y := by
  have hne : y.1 ≠ c.1 := by
    intro he
    exact hc (he ▸ (m.mem_keys y.1).mpr ⟨y.2, h⟩)
  simpa [Recorded, hne] using h

lemma Trailed.start : S.Trailed good x (.ofList [x]) [x] := by
  have hget : ∀ c, Recorded (.ofList [x]) c → c = x := fun c hc =>
    List.mem_singleton.mp (OrderedMap.mem_entries_ofList ((OrderedMap.get?_eq_some _ c.1 c.2).mp hc))
  have hx : Recorded (.ofList [x]) x := by
    rw [Recorded, OrderedMap.get?_eq_some, OrderedMap.entries_ofList (by simp)]
    exact List.mem_singleton_self _
  refine ⟨?_, by simpa using hx⟩
  intro c hc
  obtain rfl := hget c hc
  exact ⟨[], .start, by simpa using hc⟩

variable (hadm : ∀ m c, S.admits m c = true → c.1 ∉ m.keys ∧ good c)
include hadm

lemma Trailed.visits {y : ν × β} {cs : List (ν × β)} (hcs : ∀ c ∈ cs, c ∈ S.expand y)
    {st : OrderedMap ν β × List (ν × β)} (hy : Recorded st.1 y) (h : S.Trailed good x st.1 st.2) :
    S.Trailed good x (cs.foldl S.visit st).1 (cs.foldl S.visit st).2 := by
  induction cs generalizing st with
  | nil => exact h
  | cons c cs ih =>
    have hcs' := fun d hd => hcs d (List.mem_cons_of_mem c hd)
    rw [List.foldl_cons]
    by_cases ha : S.admits st.1 c = true
    · obtain ⟨hc, hg⟩ := hadm st.1 c ha
      have hv : S.visit st c = (st.1.set c.1 c.2, st.2 ++ [c]) := if_pos ha
      have hself : Recorded (st.1.set c.1 c.2) c := by simp [Recorded]
      rw [hv]
      refine ih hcs' (hy.set hc) ⟨?_, ?_⟩
      · intro d hd
        by_cases hdc : d.1 = c.1
        · obtain rfl : d = c := Prod.ext hdc (by simpa [Recorded, hdc] using hd.symm)
          obtain ⟨l, hl, hrec⟩ := h.trail y hy
          -- the node is new, so it is on no trail of recorded entries
          have hnew : d.1 ∉ (y :: l).map Prod.fst := by
            intro hmem
            obtain ⟨z, hz, hzd⟩ := List.mem_map.mp hmem
            exact hc (hzd ▸ (st.1.mem_keys z.1).mpr ⟨z.2, hrec z hz⟩)
          refine ⟨y :: l, hl.step (hcs d List.mem_cons_self) hg hnew, ?_⟩
          intro z hz
          rcases List.mem_cons.mp hz with rfl | hz
          · exact hself
          · exact (hrec z hz).set hc
        · obtain ⟨l, hl, hrec⟩ := h.trail d (by simpa [Recorded, hdc] using hd)
          exact ⟨l, hl, fun z hz => (hrec z hz).set hc⟩
      · intro z hz
        rcases List.mem_append.mp hz with hz | hz
        · exact (h.queued z hz).set hc
        · rwa [List.mem_singleton.mp hz]
    · have hv : S.visit st c = st := if_neg ha
      rw [hv]
      exact ih hcs' hy h

lemma Trailed.loop {n : ℕ} {r : OrderedMap ν β} (h : S.loop n [x] (.ofList [x]) = some r) :
    S.Trailed good x r [] := by
  refine S.loop_state (I := S.Trailed good x) ?_ .start h
  intro m y queue hm
  refine Trailed.visits hadm (fun c hc => hc) (hm.queued y List.mem_cons_self) ⟨hm.trail, ?_⟩
  exact fun z hz => hm.queued z (List.mem_cons_of_mem _ hz)

end CausalEngine.Foundations.Search
