import CausalEngine.Memory.CaseBooks

/-! Case families. A new case joins the family of the nearest case, whatever member that is; its family
is still that of a founder in the table, and there are as many families as incidents called novel. -/

namespace CausalEngine.Memory

open Foundations Correlation

def familyOf (t : CaseTable) (id : String) : Option String := (t.get? id).bind CaseRow.familyId

structure Founder (t : CaseTable) (k : CaseKey) (f : String) : Prop where
  own : familyOf t f = some f
  alike : ∃ k', prototype t f = some k' ∧ k'.signal = k.signal ∧ k'.witnessKind = k.witnessKind

def Founded (t : CaseTable) : Prop :=
  ∀ id k, prototype t id = some k → ∃ f, familyOf t id = some f ∧ Founder t k f

def founders (t : CaseTable) : List String := t.keys.filter fun id => familyOf t id = some id

def novelPasses (gs : List MemoryGraph) : ℕ :=
  (gs.filter fun g => g.caseVerdict.map CaseVerdict.caseRegister = some .novel).length

section Table

variable {t t' : CaseTable}

lemma mem_founders {id : String} : id ∈ founders t ↔ familyOf t id = some id := by
  simp only [founders, List.mem_filter, decide_eq_true_eq, and_iff_right_iff_imp]
  intro h
  obtain ⟨row, hrow, -⟩ := Option.bind_eq_some_iff.mp h
  exact (OrderedMap.mem_keys _ _).mpr ⟨row, hrow⟩

lemma founders_nodup : (founders t).Nodup := t.keys_nodup.filter _

lemma founders_length {l : List String} (hl : l.Nodup) (h : ∀ id, familyOf t id = some id ↔ id ∈ l) :
    (founders t).length = l.length := by
  apply List.Perm.length_eq
  apply (List.perm_ext_iff_of_nodup founders_nodup hl).mpr
  intro id
  rw [mem_founders, h]

lemma Founder.of_table {k : CaseKey} {f : String} (hp : prototype t' f = prototype t f)
    (hf : familyOf t' f = familyOf t f) (h : Founder t k f) : Founder t' k f :=
  ⟨hf.trans h.own, hp ▸ h.alike⟩

lemma Founder.of_comparable {k k' : CaseKey} {f : String} (h : Founder t k f)
    (hk : k.signal = k'.signal ∧ k.witnessKind = k'.witnessKind) : Founder t k' f := by
  obtain ⟨k'', hp, hs, hw⟩ := h.alike
  exact ⟨h.own, k'', hp, hs.trans hk.1, hw.trans hk.2⟩

lemma familyOf_getD (h : Founded t) {id : String} {row : CaseRow} (hrow : t.get? id = some row) :
    familyOf t id = some (row.familyId.getD id) ∧ Founder t row.key (row.familyId.getD id) := by
  obtain ⟨f, hf, hfound⟩ := h id row.key (by rw [prototype, hrow]; rfl)
  have hrf : row.familyId = some f := by simpa only [familyOf, hrow, Option.bind_some] using hf
  rw [hrf]
  exact ⟨hf, hfound⟩

lemma families_eq_founders (h : Founded t) :
    (t.entries.map fun e => e.2.familyId.getD e.1).dedup.length = (founders t).length := by
  apply List.Perm.length_eq
  apply (List.perm_ext_iff_of_nodup (List.nodup_dedup _) founders_nodup).mpr
  intro f
  rw [List.mem_dedup, List.mem_map, mem_founders]
  constructor
  · rintro ⟨⟨id, row⟩, he, rfl⟩
    exact (familyOf_getD h ((t.get?_eq_some id row).mpr he)).2.own
  · intro hf
    obtain ⟨row, hrow, hfam⟩ := Option.bind_eq_some_iff.mp hf
    exact ⟨(f, row), (t.get?_eq_some f row).mp hrow, by rw [hfam]; rfl⟩

end Table

section OneIncident

variable {ts : ℚ} {inc : Incident} {t : CaseTable} {id family : String}

lemma familyOf_set {row : CaseRow} (h : t.get? id = some row) (j : String) :
    familyOf (t.set id (recurringRow ts inc row)) j = familyOf t j := by
  simp only [familyOf, OrderedMap.get?_set]
  split_ifs with hj
  · rw [hj, h]
    rfl
  · rfl

lemma familyOf_insertNew (hfresh : id ∉ t.keys) (j : String) :
    familyOf (t.insertNew id (openedRow ts inc family)) j = if j = id then some family else familyOf t j := by
  simp only [familyOf, OrderedMap.get?_insertNew, (t.get?_eq_none id).mpr hfresh]
  split_ifs <;> rfl

lemma prototype_opened (hfresh : id ∉ t.keys) (j : String) :
    prototype (t.insertNew id (openedRow ts inc family)) j = if j = id then some inc.key else prototype t j := by
  rw [prototype_insertNew, prototype, (t.get?_eq_none id).mpr hfresh]
  rfl

lemma familyOf_fresh (hfresh : id ∉ t.keys) : familyOf t id = none := by
  rw [familyOf, (t.get?_eq_none id).mpr hfresh]
  rfl

lemma founded_recurred {row : CaseRow} (h : Founded t) (hrow : t.get? id = some row) :
    Founded (t.set id (recurringRow ts inc row)) := by
  intro j k hk
  rw [prototype_set hrow] at hk
  obtain ⟨f, hf, hfound⟩ := h j k hk
  exact ⟨f, (familyOf_set hrow j).trans hf, hfound.of_table (prototype_set hrow f) (familyOf_set hrow f)⟩

lemma founder_opened (hfresh : id ∉ t.keys) {k : CaseKey} {f : String} (h : Founder t k f) :
    Founder (t.insertNew id (openedRow ts inc family)) k f := by
  have hne : f ≠ id := by
    rintro rfl
    simpa [familyOf_fresh hfresh] using h.own
  apply h.of_table
  · rw [prototype_opened hfresh, if_neg hne]
  · rw [familyOf_insertNew hfresh, if_neg hne]

lemma founded_opened (h : Founded t) (hfresh : id ∉ t.keys) (hf : family = id ∨ Founder t inc.key family) :
    Founded (t.insertNew id (openedRow ts inc family)) := by
  intro j k hk
  rw [prototype_opened hfresh] at hk
  rw [familyOf_insertNew hfresh]
  split_ifs at hk ⊢ with hj
  · obtain rfl := Option.some.inj hk
    refine ⟨family, rfl, ?_⟩
    rcases hf with rfl | hf
    · refine ⟨?_, inc.key, ?_, rfl, rfl⟩
      · rw [familyOf_insertNew hfresh, if_pos rfl]
      · rw [prototype_opened hfresh, if_pos rfl]
    · exact founder_opened hfresh hf
  · obtain ⟨f, hjf, hfound⟩ := h j k hk
    exact ⟨f, hjf, founder_opened hfresh hfound⟩

lemma founders_recurred {row : CaseRow} (hrow : t.get? id = some row) :
    (founders (t.set id (recurringRow ts inc row))).length = (founders t).length := by
  apply founders_length founders_nodup
  intro j
  rw [familyOf_set hrow, mem_founders]

lemma founders_novel (hfresh : id ∉ t.keys) :
    (founders (t.insertNew id (openedRow ts inc id))).length = (founders t).length + 1 := by
  have hnew : id ∉ founders t := fun h => by simp [mem_founders, familyOf_fresh hfresh] at h
  rw [← List.length_cons (a := id), founders_length (List.nodup_cons.mpr ⟨hnew, founders_nodup⟩)]
  intro j
  rw [familyOf_insertNew hfresh, List.mem_cons, mem_founders]
  split_ifs with hj
  · simp [hj]
  · simp [hj]

lemma founders_variant (hfresh : id ∉ t.keys) (hf : Founder t inc.key family) :
    (founders (t.insertNew id (openedRow ts inc family))).length = (founders t).length := by
  apply founders_length founders_nodup
  intro j
  rw [familyOf_insertNew hfresh, mem_founders]
  split_ifs with hj
  · rw [hj, familyOf_fresh hfresh]
    simp only [Option.some.injEq, reduceCtorEq, iff_false]
    rintro rfl
    simpa [familyOf_fresh hfresh] using hf.own
  · rfl

end OneIncident

section Filing

variable (digest : CaseKey → String) (ts : ℚ) {cfg : MemoryConfig} {inc : Incident} {t : CaseTable}

lemma families_file (hf : 0 < cfg.tauFamily) (hm : cfg.tauFamily ≤ cfg.tauMerge) (h : Founded t)
    (hfresh : (∀ e ∈ t.entries, caseSim inc.key e.2.key < cfg.tauMerge) → digest inc.key ∉ t.keys) :
    Founded (fileIncident digest cfg ts inc t).1 ∧
      (founders (fileIncident digest cfg ts inc t).1).length = (founders t).length +
        if (fileIncident digest cfg ts inc t).2.caseRegister = .novel then 1 else 0 := by
  rcases fileIncident_cases digest ts inc t (hf.trans_le hm) with
    ⟨id, row, hrow, -, -, he⟩ | ⟨hfar, family, reg, sim, hreg, he⟩
  · rw [he]
    exact ⟨founded_recurred h hrow, founders_recurred hrow⟩
  · have hnew := hfresh hfar
    rw [he]
    rcases hreg with ⟨rfl, rfl⟩ | ⟨rfl, e, hmem, hsim, rfl⟩
    · exact ⟨founded_opened h hnew (Or.inl rfl), founders_novel hnew⟩
    · -- the nearest case need not be the founder, but its own founder is alike
      have hfound := (familyOf_getD h ((t.get?_eq_some e.1 e.2).mpr hmem)).2
      obtain ⟨hs, hw⟩ := comparable_of_caseSim (hf.trans_le hsim)
      have hinc := hfound.of_comparable ⟨hs.symm, hw.symm⟩
      exact ⟨founded_opened h hnew (Or.inr hinc), founders_variant hnew hinc⟩

lemma families_observe (hf : 0 < cfg.tauFamily) (hm : cfg.tauFamily ≤ cfg.tauMerge) (h₁ : cfg.tauMerge ≤ 1)
    {xs : List Observation} {o : Observation} {db : Db} (hd : DigestInjective digest cfg (xs ++ [o]))
    (hrec : Recorded digest xs cfg db) (h : Founded db.cases) :
    Founded (observe digest cfg db o).1.cases ∧ (founders (observe digest cfg db o).1.cases).length =
      (founders db.cases).length + novelPasses [(observe digest cfg db o).2] := by
  rw [cases_observe, novelPasses, List.filter_singleton, caseVerdict_observe]
  cases hinc : incident cfg o.graph with
  | none => exact ⟨h, rfl⟩
  | some inc =>
    obtain ⟨hfound, hlen⟩ := families_file digest o.ts hf hm h (fresh_case digest h₁ hd hinc hrec)
    refine ⟨hfound, ?_⟩
    rw [Option.elim_some, hlen]
    congr 1
    simp only [Option.map_some, Option.some.injEq]
    split_ifs with hr <;> simp [hr]

lemma families_run (hf : 0 < cfg.tauFamily) (hm : cfg.tauFamily ≤ cfg.tauMerge) (h₁ : cfg.tauMerge ≤ 1)
    (xs : List Observation) (hd : DigestInjective digest cfg xs) :
    Founded (Runs.final (observe digest cfg) .empty xs).cases ∧
      (founders (Runs.final (observe digest cfg) .empty xs).cases).length =
        novelPasses (Runs.outputs (observe digest cfg) .empty xs) := by
  induction xs using List.reverseRecOn with
  | nil =>
    refine ⟨?_, rfl⟩
    intro id k hk
    simp [Runs.final, prototype, Db.empty] at hk
  | append_singleton xs o ih =>
    have hxs : DigestInjective digest cfg xs := fun o ho o' ho' =>
      hd o (List.mem_append_left _ ho) o' (List.mem_append_left _ ho')
    obtain ⟨hfound, hlen⟩ := ih hxs
    have hrec := recorded_run digest (hf.trans_le hm) h₁ xs hxs
    obtain ⟨hfound', hlen'⟩ := families_observe digest hf hm h₁ hd hrec hfound
    rw [Runs.final_append, Runs.outputs_append, novelPasses, List.filter_append, List.length_append]
    exact ⟨hfound', by rw [← novelPasses, ← hlen]; exact hlen'⟩

end Filing

theorem case_families_founded (digest : CaseKey → String) (cfg : MemoryConfig) (hf : 0 < cfg.tauFamily)
    (hm : cfg.tauFamily ≤ cfg.tauMerge) (h₁ : cfg.tauMerge ≤ 1) (xs : List Observation)
    (hd : DigestInjective digest cfg xs) :
    let db := Runs.final (observe digest cfg) .empty xs
    (∀ id row, db.cases.get? id = some row → ∃ f founder, row.familyId = some f ∧ db.cases.get? f = some founder ∧
      founder.familyId = some f ∧ founder.key.signal = row.key.signal ∧
      founder.key.witnessKind = row.key.witnessKind) ∧
    (stats db).families = ((Runs.outputs (observe digest cfg) .empty xs).filter fun g =>
      g.caseVerdict.map CaseVerdict.caseRegister = some .novel).length := by
  intro db
  obtain ⟨hfound, hlen⟩ := families_run digest hf hm h₁ xs hd
  constructor
  · intro id row hrow
    obtain ⟨f, hf', hown, k, hk, hs, hw⟩ := hfound id row.key (by rw [prototype, hrow]; rfl)
    obtain ⟨founder, hfounder, rfl⟩ := Option.map_eq_some_iff.mp hk
    rw [familyOf, hrow] at hf'
    rw [familyOf, hfounder] at hown
    exact ⟨f, founder, hf', hfounder, hown, hs, hw⟩
  · exact (families_eq_founders hfound).trans hlen

theorem case_families_founded_wider :
    let xs := [stormPass, widerPass]
    let db := Runs.final (observe victimDigest {}) .empty xs
    (∃ row, db.cases.get? "dcim-bridge,timescaledb" = some row ∧ ∃ f founder, row.familyId = some f ∧
      db.cases.get? f = some founder ∧ founder.familyId = some f ∧ f = "timescaledb") ∧
    (stats db).families = ((Runs.outputs (observe victimDigest {}) .empty xs).filter fun g =>
      g.caseVerdict.map CaseVerdict.caseRegister = some .novel).length ∧ (stats db).cases = 2 := by
  intro xs db
  have hd : DigestInjective victimDigest {} xs := digestInjective_of_keys (by decide +kernel)
  obtain ⟨hfound, hcount⟩ := case_families_founded victimDigest {} (by norm_num) (by norm_num) (by norm_num) xs hd
  obtain ⟨row, hrow, hfam⟩ : ∃ row, db.cases.get? "dcim-bridge,timescaledb" = some row ∧
      row.familyId = some "timescaledb" := Option.map_eq_some_iff.mp (by decide +kernel)
  obtain ⟨f, founder, hf, hfounder, hown, -, -⟩ := hfound _ row hrow
  exact ⟨⟨row, hrow, f, founder, hf, hfounder, hown, Option.some.inj (hf.symm.trans hfam)⟩, hcount, by decide +kernel⟩

end CausalEngine.Memory
