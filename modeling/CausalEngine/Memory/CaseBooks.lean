import CausalEngine.Memory.CaseLibrary

/-! The books of the case library. A new case is written with `INSERT OR IGNORE`; it is never ignored,
because a case of the same name would have had the same key and so have taken the incident itself. -/

namespace CausalEngine.Memory

open Foundations Correlation

inductive Filed (db db' : Db) : Prop
  | idle : db'.cases = db.cases → db'.caseObservations = db.caseObservations → Filed db db'
  | opened (ob : CaseObservation) (row : CaseRow) : ob.caseId ∉ db.cases.keys → row.occurrences = 1 →
      db'.cases = db.cases.insertNew ob.caseId row → db'.caseObservations = db.caseObservations ++ [ob] →
      Filed db db'
  | recurred (ob : CaseObservation) (old row : CaseRow) : db.cases.get? ob.caseId = some old →
      row.occurrences = old.occurrences + 1 → db'.cases = db.cases.set ob.caseId row →
      db'.caseObservations = db.caseObservations ++ [ob] → Filed db db'

structure Balanced (db : Db) : Prop where
  counted : ∀ id row, db.cases.get? id = some row →
    row.occurrences = (db.caseObservations.filter fun ob => ob.caseId = id).length
  filed : ∀ ob ∈ db.caseObservations, ob.caseId ∈ db.cases.keys

def recordsOf (obs : List CaseObservation) (id : String) : List CaseObservation := obs.filter fun ob => ob.caseId = id

lemma recordsOf_append (obs : List CaseObservation) (ob : CaseObservation) (id : String) :
    (recordsOf (obs ++ [ob]) id).length = (recordsOf obs id).length + if id = ob.caseId then 1 else 0 := by
  rw [recordsOf, List.filter_append, List.length_append, recordsOf]
  congr 1
  split_ifs with hid
  · simp [hid]
  · simp [Ne.symm hid]

lemma Balanced.no_records {db : Db} (h : Balanced db) {id : String} (hid : id ∉ db.cases.keys) :
    (recordsOf db.caseObservations id).length = 0 := by
  rw [List.length_eq_zero_iff, recordsOf, List.filter_eq_nil_iff]
  intro d hd heq
  exact hid (of_decide_eq_true heq ▸ h.filed d hd)

lemma Balanced.opened {db db' : Db} (h : Balanced db) {ob : CaseObservation} {row : CaseRow}
    (hfresh : ob.caseId ∉ db.cases.keys) (hone : row.occurrences = 1)
    (hc : db'.cases = db.cases.insertNew ob.caseId row)
    (ho : db'.caseObservations = db.caseObservations ++ [ob]) : Balanced db' := by
  have hnone := (db.cases.get?_eq_none ob.caseId).mpr hfresh
  constructor
  · intro id r hr
    rw [hc, OrderedMap.get?_insertNew, hnone] at hr
    rw [ho, ← recordsOf, recordsOf_append]
    split_ifs at hr ⊢ with hid
    · obtain rfl : row = r := Option.some.inj hr
      rw [hid, h.no_records hfresh, hone]
    · exact h.counted id r hr
  · intro d hd
    rw [hc, OrderedMap.mem_keys, OrderedMap.get?_insertNew]
    rw [ho] at hd
    rcases List.mem_append.mp hd with hd | hd
    · obtain ⟨r, hr⟩ := (OrderedMap.mem_keys _ _).mp (h.filed d hd)
      split_ifs
      · exact ⟨_, rfl⟩
      · exact ⟨r, hr⟩
    · rw [List.mem_singleton.mp hd, if_pos rfl]
      exact ⟨_, rfl⟩

lemma Balanced.recurred {db db' : Db} (h : Balanced db) {ob : CaseObservation} {old row : CaseRow}
    (hold : db.cases.get? ob.caseId = some old) (hsucc : row.occurrences = old.occurrences + 1)
    (hc : db'.cases = db.cases.set ob.caseId row)
    (ho : db'.caseObservations = db.caseObservations ++ [ob]) : Balanced db' := by
  constructor
  · intro id r hr
    rw [hc, OrderedMap.get?_set] at hr
    rw [ho, ← recordsOf, recordsOf_append]
    split_ifs at hr ⊢ with hid
    · obtain rfl : row = r := Option.some.inj hr
      rw [hid, hsucc, h.counted _ old hold, recordsOf]
    · exact h.counted id r hr
  · intro d hd
    rw [hc, OrderedMap.mem_keys_set]
    rw [ho] at hd
    rcases List.mem_append.mp hd with hd | hd
    · exact Or.inr (h.filed d hd)
    · exact Or.inl (by rw [List.mem_singleton.mp hd])

lemma Balanced.filed_step {db db' : Db} (h : Balanced db) (hf : Filed db db') : Balanced db' := by
  cases hf with
  | idle hc ho =>
    constructor
    · rw [hc, ho]
      exact h.counted
    · rw [hc, ho]
      exact h.filed
  | opened ob row hfresh hone hc ho => exact h.opened hfresh hone hc ho
  | recurred ob old row hold hsucc hc ho => exact h.recurred hold hsucc hc ho

section Runs

variable (digest : CaseKey → String) {cfg : MemoryConfig} (hm : 0 < cfg.tauMerge) (h₁ : cfg.tauMerge ≤ 1)
include hm h₁

omit hm in
lemma fresh_case {xs : List Observation} {db : Db} {o : Observation} {inc : Incident}
    (hd : DigestInjective digest cfg (xs ++ [o])) (hinc : incident cfg o.graph = some inc)
    (hrec : Recorded digest xs cfg db) (hfar : ∀ e ∈ db.cases.entries, caseSim inc.key e.2.key < cfg.tauMerge) :
    digest inc.key ∉ db.cases.keys := by
  intro hk
  obtain ⟨row, hrow⟩ := (OrderedMap.mem_keys _ _).mp hk
  obtain ⟨hdk, o', ho', inc', hinc', hkey⟩ := hrec.named _ row.key (by rw [prototype, hrow]; rfl)
  rw [← hkey] at hdk
  have hsame := hd o' (List.mem_append_left _ ho') o (by simp) inc' inc hinc' hinc hdk
  have hlt := hfar _ ((OrderedMap.get?_eq_some _ _ _).mp hrow)
  rw [← hkey, hsame, caseSim_self] at hlt
  exact absurd h₁ (not_le.mpr hlt)

lemma filed_observe (xs : List Observation) (o : Observation) (hd : DigestInjective digest cfg (xs ++ [o])) :
    Filed (Runs.final (observe digest cfg) .empty xs)
      (observe digest cfg (Runs.final (observe digest cfg) .empty xs) o).1 := by
  have hxs : DigestInjective digest cfg xs := fun o ho o' ho' =>
    hd o (List.mem_append_left _ ho) o' (List.mem_append_left _ ho')
  have hrec := recorded_run digest hm h₁ xs hxs
  rcases cases_file digest cfg (Runs.final (observe digest cfg) .empty xs) o with ⟨hc, ho⟩ | ⟨inc, hinc, hc, ho⟩
  · exact .idle hc ho
  · rcases fileIncident_cases digest o.ts inc _ hm with ⟨id, row, hrow, -, -, he⟩ | ⟨hfar, family, reg, sim, -, he⟩
    · rw [he] at hc ho
      exact .recurred _ row _ hrow rfl hc ho
    · rw [he] at hc ho
      exact .opened _ _ (fresh_case digest h₁ hd hinc hrec hfar) rfl hc ho

lemma balanced_run (xs : List Observation) (hd : DigestInjective digest cfg xs) :
    Balanced (Runs.final (observe digest cfg) .empty xs) := by
  induction xs using List.reverseRecOn with
  | nil =>
    constructor
    · intro id row h
      simp [Runs.final, Db.empty] at h
    · intro ob h
      simp [Runs.final, Db.empty] at h
  | append_singleton xs o ih =>
    have hxs : DigestInjective digest cfg xs := fun o ho o' ho' =>
      hd o (List.mem_append_left _ ho) o' (List.mem_append_left _ ho')
    rw [Runs.final_append]
    exact (ih hxs).filed_step (filed_observe digest hm h₁ xs o hd)

end Runs

theorem case_books_balanced (digest : CaseKey → String) (cfg : MemoryConfig) (hf : 0 < cfg.tauFamily)
    (hm : cfg.tauFamily ≤ cfg.tauMerge) (h₁ : cfg.tauMerge ≤ 1) (xs : List Observation) (o : Observation)
    (hd : DigestInjective digest cfg (xs ++ [o])) :
    let db := Runs.final (observe digest cfg) .empty xs
    let db' := (observe digest cfg db o).1
    (∀ id row, db'.cases.get? id = some row →
      row.occurrences = (db'.caseObservations.filter fun ob => ob.caseId = id).length) ∧
    (∀ ob ∈ db'.caseObservations, ob.caseId ∈ db'.cases.keys) ∧ Filed db db' := by
  intro db db'
  have hpos := hf.trans_le hm
  have hbal := balanced_run digest hpos h₁ (xs ++ [o]) hd
  rw [Runs.final_append] at hbal
  exact ⟨hbal.counted, hbal.filed, filed_observe digest hpos h₁ xs o hd⟩

theorem case_books_balanced_storm :
    let db := Runs.final (observe stormDigest {}) .empty [stormPass]
    let db' := (observe stormDigest {} db stormPass).1
    ∃ row, db'.cases.get? (stormDigest stormKey) = some row ∧ row.occurrences = 2 ∧
      row.occurrences = (db'.caseObservations.filter fun ob => ob.caseId = stormDigest stormKey).length ∧
      Filed db db' := by
  intro db db'
  obtain ⟨row, hrow, htwo⟩ : ∃ row, db'.cases.get? (stormDigest stormKey) = some row ∧ row.occurrences = 2 :=
    Option.map_eq_some_iff.mp (by decide +kernel)
  have hd : DigestInjective stormDigest {} ([stormPass] ++ [stormPass]) := digestInjective_of_keys (by decide +kernel)
  obtain ⟨hcount, -, hfiled⟩ := case_books_balanced stormDigest {} (by norm_num) (by norm_num) (by norm_num)
    [stormPass] stormPass hd
  exact ⟨row, hrow, htwo, hcount _ row hrow, hfiled⟩

end CausalEngine.Memory
