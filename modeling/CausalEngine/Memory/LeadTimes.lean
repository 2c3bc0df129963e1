import CausalEngine.Memory.CaseBooks
import CausalEngine.Foundations.Moments

/-! The typical lead time of a case. It is updated as a mean whose weight is the number of all incidents of
the case, so it is the mean of their lead times as long as each of them had one. -/

namespace CausalEngine.Memory

open Foundations Correlation

def leadsOf (obs : List CaseObservation) (id : String) : List ℚ :=
  (recordsOf obs id).filterMap fun ob => leadTime ob.graph

def LeadMeans (db : Db) : Prop :=
  ∀ id row, db.cases.get? id = some row → row.typicalLeadTimeS = average (leadsOf db.caseObservations id)

def foldTarget (cfg : MemoryConfig) (t : CaseTable) (key : CaseKey) : Option (String × CaseRow) :=
  (nearestCase t key).1.filter fun _ => cfg.tauMerge ≤ (nearestCase t key).2

/-- An incident with a lead time is folded into a case all of whose incidents had one, or brings the value the
case already has; a new case whose name is taken brings the value stored under that name. -/
structure LeadKept (digest : CaseKey → String) (cfg : MemoryConfig) (db : Db) (o : Observation) : Prop where
  folded : ∀ inc l id row old, incident cfg o.graph = some inc → inc.leadTimeS = some l →
    foldTarget cfg db.cases inc.key = some (id, row) → row.typicalLeadTimeS = some old →
      l = old ∨ row.occurrences = (leadsOf db.caseObservations id).length
  taken : ∀ inc l row, incident cfg o.graph = some inc → inc.leadTimeS = some l →
    foldTarget cfg db.cases inc.key = none → db.cases.get? (digest inc.key) = some row →
      row.typicalLeadTimeS = some l

def Recording (db : Db) : Prop := ∀ ob ∈ db.caseObservations, ob.caseId ∈ db.cases.keys

section Table

lemma leadsOf_append (obs : List CaseObservation) (ob : CaseObservation) (id : String) :
    leadsOf (obs ++ [ob]) id = leadsOf obs id ++ if id = ob.caseId then (leadTime ob.graph).toList else [] := by
  rw [leadsOf, recordsOf, List.filter_append, List.filterMap_append, leadsOf, recordsOf]
  congr 1
  split_ifs with hid
  · cases hl : leadTime ob.graph <;> simp [hid, hl]
  · simp [Ne.symm hid]

lemma leadsOf_unrecorded {db : Db} (h : Recording db) {id : String} (hid : id ∉ db.cases.keys) :
    leadsOf db.caseObservations id = [] := by
  rw [leadsOf, recordsOf, List.filter_eq_nil_iff.mpr, List.filterMap_nil]
  intro ob hob heq
  exact hid (of_decide_eq_true heq ▸ h ob hob)

lemma leadMeans_recorded {db : Db} (db' : Db) (ob : CaseObservation) (row : CaseRow) (h : LeadMeans db)
    (hc : ∀ id, db'.cases.get? id = if id = ob.caseId then some row else db.cases.get? id)
    (ho : db'.caseObservations = db.caseObservations ++ [ob]) : LeadMeans db' ↔
      row.typicalLeadTimeS = average (leadsOf db.caseObservations ob.caseId ++ (leadTime ob.graph).toList) := by
  constructor
  · intro h'
    rw [h' ob.caseId row (by rw [hc, if_pos rfl]), ho, leadsOf_append, if_pos rfl]
  · intro hrow id r hr
    rw [hc] at hr
    rw [ho, leadsOf_append]
    split_ifs at hr ⊢ with hid
    · rw [← Option.some.inj hr, hid]
      exact hrow
    · rw [List.append_nil]
      exact h id r hr

lemma mergedLead_average {row : CaseRow} {leads : List ℚ} (h : row.typicalLeadTimeS = average leads) (lead : Option ℚ) :
    mergedLead row lead = average (leads ++ lead.toList) ↔ ∀ l old, lead = some l → row.typicalLeadTimeS = some old →
      l = old ∨ row.occurrences = leads.length := by
  cases lead with
  | none => simp [mergedLead, h]
  | some l =>
    cases hold : average leads with
    | none =>
      rw [hold] at h
      simp [mergedLead, h, average_eq_none.mp hold, average]
    | some old =>
      rw [hold] at h
      simpa [mergedLead, h] using average_update row.occurrences hold

lemma ignoredLead_average {row : CaseRow} {leads : List ℚ} (h : row.typicalLeadTimeS = average leads)
    (lead : Option ℚ) : row.typicalLeadTimeS = average (leads ++ lead.toList) ↔
      ∀ l, lead = some l → row.typicalLeadTimeS = some l := by
  cases lead with
  | none => simp [h]
  | some l =>
    rw [h, Option.toList_some, eq_comm]
    cases hold : average leads with
    | none => simp [average_snoc]
    | some old => simpa using average_absorbs hold

end Table

section Step

variable (digest : CaseKey → String) (ts : ℚ) {cfg : MemoryConfig} {inc : Incident} {t : CaseTable}

lemma fileIncident_folded {id : String} {row : CaseRow} (h : foldTarget cfg t inc.key = some (id, row)) :
    t.get? id = some row ∧ (fileIncident digest cfg ts inc t).1 = t.set id (recurringRow ts inc row) ∧
      (fileIncident digest cfg ts inc t).2.caseId = id := by
  rw [foldTarget] at h
  rcases hn : nearestCase t inc.key with ⟨best, sim⟩
  rw [hn] at h
  obtain ⟨rfl, hsim⟩ := Option.filter_eq_some_iff.mp h
  obtain ⟨-, -, hsome⟩ := nearest_spec inc.key t.entries hn
  refine ⟨(t.get?_eq_some id row).mpr (hsome _ rfl).1, ?_, ?_⟩
  · simp only [fileIncident, hn, if_pos (of_decide_eq_true hsim)]
  · simp only [fileIncident, hn, if_pos (of_decide_eq_true hsim)]

lemma fileIncident_unfolded (h : foldTarget cfg t inc.key = none) : ∃ family,
    (fileIncident digest cfg ts inc t).1 = t.insertNew (digest inc.key) (openedRow ts inc family) ∧
      (fileIncident digest cfg ts inc t).2.caseId = digest inc.key := by
  rw [foldTarget] at h
  rcases hn : nearestCase t inc.key with ⟨best, sim⟩
  rw [hn] at h
  simp only [fileIncident, hn]
  cases best with
  | none => exact ⟨_, rfl, rfl⟩
  | some e =>
    have hsim : ¬cfg.tauMerge ≤ sim := by simpa [Option.filter] using h
    simp only [if_neg hsim]
    split_ifs
    · exact ⟨_, rfl, rfl⟩
    · exact ⟨_, rfl, rfl⟩

lemma incident_lead {g : PassGraph String} (h : incident cfg g = some inc) : inc.leadTimeS = leadTime g := by
  obtain ⟨-, -, -, -, hlead, -⟩ := incident_spec h
  exact hlead

variable {db : Db} {o : Observation}

lemma recording_observe (h : Recording db) : Recording (observe digest cfg db o).1 := by
  rcases cases_file digest cfg db o with ⟨hc, ho⟩ | ⟨inc, -, hc, ho⟩
  · rw [Recording, hc, ho]
    exact h
  · intro ob hob
    rw [hc]
    rw [ho] at hob
    cases hf : foldTarget cfg db.cases inc.key with
    | none =>
      obtain ⟨family, he, hid⟩ := fileIncident_unfolded digest o.ts hf
      rw [hid] at hob
      rw [he, OrderedMap.mem_keys, OrderedMap.get?_insertNew]
      rcases List.mem_append.mp hob with hob | hob
      · split_ifs
        · exact ⟨_, rfl⟩
        · exact (OrderedMap.mem_keys _ _).mp (h ob hob)
      · rw [List.mem_singleton.mp hob, if_pos rfl]
        exact ⟨_, rfl⟩
    | some e =>
      obtain ⟨-, he, hid⟩ := fileIncident_folded digest o.ts hf
      rw [hid] at hob
      rw [he, OrderedMap.mem_keys_set]
      rcases List.mem_append.mp hob with hob | hob
      · exact Or.inr (h ob hob)
      · exact Or.inl (by rw [List.mem_singleton.mp hob])

lemma leadMeans_folded {id : String} {row : CaseRow} (h : LeadMeans db) (hinc : incident cfg o.graph = some inc)
    (hf : foldTarget cfg db.cases inc.key = some (id, row)) : LeadMeans (observe digest cfg db o).1 ↔
      ∀ l old, inc.leadTimeS = some l → row.typicalLeadTimeS = some old →
        l = old ∨ row.occurrences = (leadsOf db.caseObservations id).length := by
  obtain ⟨hrow, he, hid⟩ := fileIncident_folded digest o.ts hf
  rw [← mergedLead_average (h id row hrow), incident_lead hinc]
  apply leadMeans_recorded _ ⟨o.ts, id, inc.root, inc.key.victims, o.graph⟩
    { recurringRow o.ts inc row with typicalLeadTimeS := mergedLead row (leadTime o.graph) } h
  · intro j
    rw [cases_observe, hinc, Option.elim_some, he, OrderedMap.get?_set, ← incident_lead hinc]
    rfl
  · rw [caseObservations_observe, hinc, Option.map_some, Option.toList_some, hid]

lemma leadMeans_unfolded (h : LeadMeans db) (hreg : Recording db) (hinc : incident cfg o.graph = some inc)
    (hf : foldTarget cfg db.cases inc.key = none) : LeadMeans (observe digest cfg db o).1 ↔
      ∀ l row, inc.leadTimeS = some l → db.cases.get? (digest inc.key) = some row →
        row.typicalLeadTimeS = some l := by
  obtain ⟨family, he, hid⟩ := fileIncident_unfolded digest o.ts hf
  have hrec := leadMeans_recorded (observe digest cfg db o).1
    ⟨o.ts, digest inc.key, inc.root, inc.key.victims, o.graph⟩
    ((db.cases.get? (digest inc.key)).getD (openedRow o.ts inc family)) h
  rw [hrec]
  · simp only [← incident_lead hinc]
    cases hk : db.cases.get? (digest inc.key) with
    | none =>
      rw [leadsOf_unrecorded hreg ((OrderedMap.get?_eq_none _ _).mp hk), Option.getD_none, openedRow]
      cases inc.leadTimeS with
      | none => simp [average]
      | some l => simp [average]
    | some row =>
      rw [Option.getD_some, ignoredLead_average (h _ row hk)]
      simp
  · intro j
    rw [cases_observe, hinc, Option.elim_some, he, OrderedMap.get?_insertNew]
  · rw [caseObservations_observe, hinc, Option.map_some, Option.toList_some, hid]

lemma leadMeans_observe (hreg : Recording db) (h : LeadMeans db) :
    LeadMeans (observe digest cfg db o).1 ↔ LeadKept digest cfg db o := by
  cases hinc : incident cfg o.graph with
  | none =>
    refine iff_of_true ?_ ⟨by simp [hinc], by simp [hinc]⟩
    rw [LeadMeans, cases_observe, caseObservations_observe, hinc, Option.elim_none, Option.map_none, Option.toList_none,
      List.append_nil]
    exact h
  | some inc =>
    cases hf : foldTarget cfg db.cases inc.key with
    | some e =>
      obtain ⟨id, row⟩ := e
      rw [leadMeans_folded digest h hinc hf]
      constructor
      · intro hkept
        constructor
        · intro inc' l id' row' old hi hl hf' hold
          obtain rfl := Option.some.inj (hinc.symm.trans hi)
          obtain ⟨rfl, rfl⟩ := Prod.mk.inj (Option.some.inj (hf.symm.trans hf'))
          exact hkept l old hl hold
        · intro inc' l row' hi _ hf'
          obtain rfl := Option.some.inj (hinc.symm.trans hi)
          simp [hf] at hf'
      · exact fun hkept l old hl hold => hkept.folded inc l id row old hinc hl hf hold
    | none =>
      rw [leadMeans_unfolded digest h hreg hinc hf]
      constructor
      · intro hkept
        constructor
        · intro inc' l id row old hi _ hf'
          obtain rfl := Option.some.inj (hinc.symm.trans hi)
          simp [hf] at hf'
        · intro inc' l row hi hl _ hrow
          obtain rfl := Option.some.inj (hinc.symm.trans hi)
          exact hkept l row hl hrow
      · exact fun hkept l row hl hrow => hkept.taken inc l row hinc hl hf hrow

end Step

/-- All along a run the typical lead times are the means of the recorded ones, exactly when no step weights an
incident that had none. -/
theorem lead_means_iff (digest : CaseKey → String) (cfg : MemoryConfig) (xs : List Observation) :
    (∀ ys, ys <+: xs → LeadMeans (Runs.final (observe digest cfg) .empty ys)) ↔
      ∀ ys o, ys ++ [o] <+: xs → LeadKept digest cfg (Runs.final (observe digest cfg) .empty ys) o := by
  apply Runs.final_prefixes_iff (observe digest cfg) (I := Recording)
  · intro ob hob
    simp [Db.empty] at hob
  · intro id row hrow
    simp [Db.empty] at hrow
  · exact fun db o h => recording_observe digest h
  · exact fun db o hreg h => leadMeans_observe digest hreg h

def timedPass (eta : Option ℤ) : Observation :=
  { stormPass with
    graph := { stormPass.graph with
      edges := [⟨"cooling-monitor-5f-x1", "timescaledb-7c-z9", .tenths 9, 0, [.write, .pvc]⟩]
      blastRadius := eta.toList.map fun t => ⟨"timescaledb-7c-z9", 63 / 100, t⟩ } }

theorem lead_means_iff_timely :
    let xs := [timedPass (some 10), timedPass (some 20), timedPass none]
    ((Runs.final (observe stormDigest {}) .empty xs).cases.get? (stormDigest stormKey)).map
        CaseRow.typicalLeadTimeS = some (some 15) ∧
      ∀ ys o, ys ++ [o] <+: xs → LeadKept stormDigest {} (Runs.final (observe stormDigest {}) .empty ys) o := by
  intro xs
  refine ⟨by decide +kernel, (lead_means_iff stormDigest {} xs).mp ?_⟩
  have hmeans : ∀ ys ∈ [timedPass (some 10), timedPass (some 20), timedPass none].inits,
      ∀ e ∈ (Runs.final (observe stormDigest {}) .empty ys).cases.entries, e.2.typicalLeadTimeS =
        average (leadsOf (Runs.final (observe stormDigest {}) .empty ys).caseObservations e.1) := by decide +kernel
  intro ys hys id row hrow
  exact hmeans ys ((List.mem_inits _ _).mpr hys) (id, row) ((OrderedMap.get?_eq_some _ id row).mp hrow)

theorem lead_mean_of_all_incidents : ∃ row,
    let db := Runs.final (observe stormDigest {}) .empty [timedPass (some 10), timedPass none, timedPass (some 20)]
    db.cases.get? (stormDigest stormKey) = some row ∧ row.typicalLeadTimeS = some (40 / 3) ∧
      leadsOf db.caseObservations (stormDigest stormKey) = [10, 20] ∧ ¬LeadMeans db := by
  obtain ⟨row, hrow, hlead⟩ := Option.map_eq_some_iff.mp (by decide +kernel :
    ((Runs.final (observe stormDigest {}) .empty
      [timedPass (some 10), timedPass none, timedPass (some 20)]).cases.get? (stormDigest stormKey)).map
        CaseRow.typicalLeadTimeS = some (some (40 / 3)))
  have hleads : leadsOf (Runs.final (observe stormDigest {}) .empty [timedPass (some 10), timedPass none,
      timedPass (some 20)]).caseObservations (stormDigest stormKey) = [10, 20] := by decide +kernel
  refine ⟨row, hrow, hlead, hleads, ?_⟩
  intro hmean
  have hbad := hmean _ row hrow
  rw [hlead, hleads] at hbad
  norm_num [average] at hbad

end CausalEngine.Memory
