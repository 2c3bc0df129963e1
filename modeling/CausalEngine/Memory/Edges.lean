import CausalEngine.Memory.Schema
import CausalEngine.Correlation.Gate
import Mathlib.Data.Sym.Sym2.Order

/-! Edge memory. A pass seeds the pairs that share a disk, confirms the edges it saw and decays the
others; what each of the three does to the row of one key is stated beside it. -/

namespace CausalEngine.Memory

open Foundations Correlation

variable (cfg : MemoryConfig) (present : List String) (ts : ℚ)

def structuralRow : EdgeRow where
  confidence := cfg.prior
  r := Coef.zero
  lagS := 0
  evidence := [.pvc]
  hits := 0
  visible := false
  state := .steady
  firstSeenTs := ts
  lastSeenTs := ts
  updatedTs := ts
  baseConf := cfg.prior

def structuralKey (pair : Sym2 String) : Option EdgeKey :=
  let wls := pair.map stableWorkload
  if wls.inf = wls.sup ∨ wls.inf ∉ present ∨ wls.sup ∉ present then none
  else some ⟨wls.inf, wls.sup, cfg.signal⟩

def seedKey (m : EdgeTable) (key : EdgeKey) : EdgeTable :=
  match m.get? key with
  | none => m.insertNew key (structuralRow cfg ts)
  | some row => if row.baseConf < cfg.prior then m.set key { row with baseConf := cfg.prior } else m

def seedStructural (witness : Witness String) (m : EdgeTable) : EdgeTable :=
  (witness.sharedRelation.filterMap (structuralKey cfg present)).foldl (seedKey cfg ts) m

def edgeKeyOf (e : Edge String) : EdgeKey := ⟨stableWorkload e.src, stableWorkload e.dst, cfg.signal⟩

def confirmedConf (row : Option EdgeRow) : ℚ :=
  row.elim cfg.alpha fun o => o.confidence + cfg.alpha * (1 - o.confidence)

def confirmRow (e : Edge String) (row : Option EdgeRow) : EdgeRow :=
  let conf := confirmedConf cfg row
  let visible := row.any EdgeRow.visible || cfg.showAt ≤ conf
  { confidence := conf
    r := e.r
    lagS := e.lagS
    evidence := e.evidence
    hits := row.elim 1 fun o => o.hits + 1
    visible := visible
    state := if visible then .active else .confirming
    firstSeenTs := row.elim ts EdgeRow.firstSeenTs
    lastSeenTs := ts
    updatedTs := ts
    baseConf := max (row.elim 0 EdgeRow.baseConf) (cfg.floorFrac * conf) }

def confirmEdge (m : EdgeTable) (e : Edge String) : EdgeTable :=
  m.replace (edgeKeyOf cfg e) (confirmRow cfg ts e (m.get? (edgeKeyOf cfg e)))

def decayRow (row : EdgeRow) : EdgeRow :=
  let conf := max row.baseConf (row.confidence * (1 - cfg.decay))
  let visible := row.visible && cfg.hideAt ≤ conf
  let atFloor := conf ≤ row.baseConf + 1 / 10 ^ 9 ∧ 0 < row.baseConf
  { row with
    confidence := conf
    visible := visible
    state := if atFloor then .steady else if visible then .decaying else .hidden
    updatedTs := ts }

def decays (seen : List EdgeKey) (key : EdgeKey) : Prop :=
  key.signal = cfg.signal ∧ key ∉ seen ∧ key.src ∈ present ∧ key.dst ∈ present

instance (seen : List EdgeKey) (key : EdgeKey) : Decidable (decays cfg present seen key) :=
  inferInstanceAs (Decidable (_ ∧ _))

def decayAbsentEdges (seen : List EdgeKey) (m : EdgeTable) : EdgeTable :=
  m.mapVals fun key row => if decays cfg present seen key then decayRow cfg ts row else row

def updateEdges (witness : Option (Witness String)) (edges : List (Edge String)) (m : EdgeTable) : EdgeTable :=
  let seeded := witness.elim m fun w => seedStructural cfg present ts w m
  decayAbsentEdges cfg present ts (edges.map (edgeKeyOf cfg)) (edges.foldl (confirmEdge cfg ts) seeded)

lemma confirmedConf_bounds (h₀ : 0 ≤ cfg.alpha) (h₁ : cfg.alpha ≤ 1) {row : Option EdgeRow}
    (h : ∀ o, row = some o → 0 ≤ o.confidence ∧ o.confidence ≤ 1) :
    (∀ o, row = some o → o.confidence ≤ confirmedConf cfg row) ∧ cfg.alpha ≤ confirmedConf cfg row ∧
      confirmedConf cfg row ≤ 1 := by
  cases row with
  | none => exact ⟨by simp, le_rfl, h₁⟩
  | some o =>
    obtain ⟨hc₀, hc₁⟩ := h o rfl
    simp only [confirmedConf, Option.elim_some, Option.some.injEq, forall_eq']
    refine ⟨?_, ?_, ?_⟩
    · exact le_add_of_nonneg_right (mul_nonneg h₀ (by linarith))
    · nlinarith
    · nlinarith

section Lookup

def seedRow (row : Option EdgeRow) : EdgeRow :=
  row.elim (structuralRow cfg ts) fun o => { o with baseConf := max o.baseConf cfg.prior }

lemma get?_seedKey (m : EdgeTable) (k j : EdgeKey) : (seedKey cfg ts m k).get? j =
    if j = k then some (seedRow cfg ts (m.get? k)) else m.get? j := by
  simp only [seedKey]
  cases hm : m.get? k with
  | none =>
    by_cases hj : j = k
    · subst hj
      simp [hm, seedRow]
    · simp [hj]
  | some row =>
    dsimp only
    split_ifs with hlt hj hj
    · simp [hj, seedRow, max_eq_right hlt.le]
    · simp [hj]
    · rw [hj, hm, seedRow, Option.elim_some, max_eq_left (not_lt.mp hlt)]
    · rfl

lemma seedRow_idem (row : Option EdgeRow) : seedRow cfg ts (some (seedRow cfg ts row)) = seedRow cfg ts row := by
  cases row with
  | none => simp [seedRow, structuralRow]
  | some o => simp [seedRow]

lemma get?_seedKeys (keys : List EdgeKey) (m : EdgeTable) (j : EdgeKey) :
    (keys.foldl (seedKey cfg ts) m).get? j =
      if j ∈ keys then some (seedRow cfg ts (m.get? j)) else m.get? j := by
  induction keys generalizing m with
  | nil => simp
  | cons k keys ih =>
    rw [List.foldl_cons, ih, get?_seedKey]
    by_cases hj : j = k
    · subst hj
      simp [seedRow_idem]
    · simp [hj]

lemma get?_seedStructural (w : Witness String) (m : EdgeTable) (j : EdgeKey) :
    (seedStructural cfg present ts w m).get? j =
      if ∃ z ∈ w.sharedRelation, structuralKey cfg present z = some j then some (seedRow cfg ts (m.get? j))
      else m.get? j := by
  rw [seedStructural, get?_seedKeys]
  simp only [List.mem_filterMap]

lemma get?_confirmEdge (m : EdgeTable) (e : Edge String) (j : EdgeKey) : (confirmEdge cfg ts m e).get? j =
    if j = edgeKeyOf cfg e then some (confirmRow cfg ts e (m.get? j)) else m.get? j := by
  rw [confirmEdge, OrderedMap.get?_replace]
  split_ifs with hj
  · rw [hj]
  · rfl

lemma get?_confirmEdges (edges : List (Edge String)) (m : EdgeTable) (j : EdgeKey) :
    (edges.foldl (confirmEdge cfg ts) m).get? j =
      (edges.filter fun e => edgeKeyOf cfg e = j).foldl (fun row e => some (confirmRow cfg ts e row))
        (m.get? j) := by
  induction edges generalizing m with
  | nil => rfl
  | cons e edges ih =>
    rw [List.foldl_cons, ih, get?_confirmEdge]
    by_cases hj : j = edgeKeyOf cfg e
    · rw [List.filter_cons_of_pos (by simp [hj]), List.foldl_cons, if_pos hj]
    · rw [List.filter_cons_of_neg (by simp [Ne.symm hj]), if_neg hj]

lemma get?_decayAbsentEdges (seen : List EdgeKey) (m : EdgeTable) (j : EdgeKey) :
    (decayAbsentEdges cfg present ts seen m).get? j =
      (m.get? j).map fun row => if decays cfg present seen j then decayRow cfg ts row else row := by
  rw [decayAbsentEdges, OrderedMap.get?_mapVals]

def seeds (witness : Option (Witness String)) (key : EdgeKey) : Bool :=
  witness.any fun w => w.sharedRelation.any fun z => structuralKey cfg present z = some key

lemma get?_updateEdges (witness : Option (Witness String)) (edges : List (Edge String)) (m : EdgeTable)
    (j : EdgeKey) :
    (updateEdges cfg present ts witness edges m).get? j =
      ((edges.filter fun e => edgeKeyOf cfg e = j).foldl (fun row e => some (confirmRow cfg ts e row))
        (if seeds cfg present witness j then some (seedRow cfg ts (m.get? j)) else m.get? j)).map
          fun row => if decays cfg present (edges.map (edgeKeyOf cfg)) j then decayRow cfg ts row else row := by
  rw [updateEdges, get?_decayAbsentEdges, get?_confirmEdges]
  cases witness with
  | none => rfl
  | some w =>
    rw [Option.elim_some, get?_seedStructural]
    simp [seeds]

lemma structuralKey_present {z : Sym2 String} {j : EdgeKey} (h : structuralKey cfg present z = some j) :
    j.signal = cfg.signal ∧ j.src ∈ present ∧ j.dst ∈ present ∧ j.src < j.dst := by
  simp only [structuralKey] at h
  split_ifs at h with hc
  simp only [not_or, not_not] at hc
  obtain rfl := Option.some.inj h
  refine ⟨rfl, hc.2.1, hc.2.2, lt_of_le_of_ne ?_ hc.1⟩
  exact Sym2.inf_le_sup _

lemma seeds_present {witness : Option (Witness String)} {j : EdgeKey}
    (h : seeds cfg present witness j = true) :
    j.signal = cfg.signal ∧ j.src ∈ present ∧ j.dst ∈ present ∧ j.src < j.dst := by
  obtain ⟨w, _, hw⟩ := Option.any_eq_true _ _ |>.mp h
  obtain ⟨z, _, hz⟩ := List.any_eq_true.mp hw
  exact structuralKey_present cfg present (of_decide_eq_true hz)

lemma unseen_filter {edges : List (Edge String)} {j : EdgeKey} (h : j ∉ edges.map (edgeKeyOf cfg)) :
    edges.filter (fun e => edgeKeyOf cfg e = j) = [] := by
  simp only [List.filter_eq_nil_iff, decide_eq_true_eq]
  rintro e he rfl
  exact h (List.mem_map_of_mem he)

lemma confirmations_row {P Q : Option EdgeRow → Prop} (hPQ : ∀ row, P row → Q row) {edges : List (Edge String)}
    (hconfirm : ∀ e ∈ edges, ∀ row, Q row → P (some (confirmRow cfg ts e row))) (hne : edges ≠ [])
    {row : Option EdgeRow} (h : Q row) :
    P (edges.foldl (fun row e => some (confirmRow cfg ts e row)) row) := by
  induction edges generalizing row with
  | nil => exact (hne rfl).elim
  | cons e edges ih =>
    have he := hconfirm e List.mem_cons_self row h
    cases edges with
    | nil => exact he
    | cons f edges => exact ih (fun d hd => hconfirm d (List.mem_cons_of_mem _ hd)) (List.cons_ne_nil _ _) (hPQ _ he)

/-- An update restores `P` for the row of one key if seeding weakens it at most to `Q` and both the
confirmation and the decay lead back: what is seeded is then confirmed or decayed. -/
lemma updateEdges_phases {P Q : Option EdgeRow → Prop} (hPQ : ∀ row, P row → Q row)
    {witness : Option (Witness String)} {edges : List (Edge String)} {m : EdgeTable} {j : EdgeKey}
    (hm : P (m.get? j)) (hseed : seeds cfg present witness j = true → Q (some (seedRow cfg ts (m.get? j))))
    (hconfirm : ∀ e ∈ edges, edgeKeyOf cfg e = j → ∀ row, Q row → P (some (confirmRow cfg ts e row)))
    (hdecay : ∀ row, Q row → P (row.map (decayRow cfg ts))) :
    P ((updateEdges cfg present ts witness edges m).get? j) := by
  rw [get?_updateEdges]
  have hq : Q (if seeds cfg present witness j then some (seedRow cfg ts (m.get? j)) else m.get? j) := by
    split_ifs with hs
    · exact hseed hs
    · exact hPQ _ hm
  by_cases hseen : j ∈ edges.map (edgeKeyOf cfg)
  · obtain ⟨e, he, hej⟩ := List.mem_map.mp hseen
    have hd : ¬ decays cfg present (edges.map (edgeKeyOf cfg)) j := fun hd => hd.2.1 hseen
    simp only [if_neg hd, Option.map_id']
    apply confirmations_row cfg ts hPQ ?_ ?_ hq
    · intro e he
      obtain ⟨he, hj⟩ := List.mem_filter.mp he
      exact hconfirm e he (of_decide_eq_true hj)
    · exact List.ne_nil_of_mem (List.mem_filter.mpr ⟨he, by simpa using hej⟩)
  · rw [unseen_filter cfg hseen, List.foldl_nil]
    by_cases hd : decays cfg present (edges.map (edgeKeyOf cfg)) j
    · simp only [if_pos hd]
      exact hdecay _ hq
    · simp only [if_neg hd, Option.map_id']
      split_ifs with hs
      · obtain ⟨hsig, hsrc, hdst, -⟩ := seeds_present cfg present hs
        exact (hd ⟨hsig, hseen, hsrc, hdst⟩).elim
      · exact hm

lemma updateEdges_row {P : EdgeRow → Prop} {witness : Option (Witness String)} {edges : List (Edge String)}
    {m : EdgeTable} {j : EdgeKey} (hm : ∀ row, m.get? j = some row → P row)
    (hseed : seeds cfg present witness j = true → P (seedRow cfg ts (m.get? j)))
    (hconfirm : ∀ e ∈ edges, edgeKeyOf cfg e = j → ∀ row, (∀ o, row = some o → P o) →
      P (confirmRow cfg ts e row))
    (hdecay : ∀ row, P row → P (decayRow cfg ts row)) :
    ∀ row, (updateEdges cfg present ts witness edges m).get? j = some row → P row := by
  apply updateEdges_phases cfg present ts (P := fun row => ∀ o, row = some o → P o) (fun row h => h) hm
  · exact fun hs o ho => Option.some.inj ho ▸ hseed hs
  · exact fun e he hj row hrow o ho => Option.some.inj ho ▸ hconfirm e he hj row hrow
  · intro row hrow o ho
    obtain ⟨r, hr, rfl⟩ := Option.map_eq_some_iff.mp ho
    exact hdecay r (hrow r hr)

end Lookup

end CausalEngine.Memory
