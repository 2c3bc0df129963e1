import CausalEngine.Memory.CaseSimilarity
import CausalEngine.Memory.EdgeInvariant

/-! The case library over whole runs. The prototype of a case never moves, two prototypes are never
close, and every incident is close to the prototype of the case it was recorded under. -/

namespace CausalEngine.Memory

open Foundations Correlation

variable (digest : CaseKey → String) {cfg : MemoryConfig}

def prototype (t : CaseTable) (id : String) : Option CaseKey := (t.get? id).map CaseRow.key

def Separated (cfg : MemoryConfig) (t : CaseTable) : Prop :=
  ∀ id id' a b, id ≠ id' → prototype t id = some a → prototype t id' = some b → caseSim a b < cfg.tauMerge

section OneIncident

variable {ts : ℚ} {inc : Incident} {t : CaseTable}

lemma prototype_set {id : String} {row : CaseRow} (h : t.get? id = some row) (j : String) :
    prototype (t.set id (recurringRow ts inc row)) j = prototype t j := by
  simp only [prototype, OrderedMap.get?_set]
  split_ifs with hj
  · rw [hj, h]
    rfl
  · rfl

lemma prototype_insertNew (id family : String) (j : String) :
    prototype (t.insertNew id (openedRow ts inc family)) j =
      if j = id then some ((prototype t id).getD inc.key) else prototype t j := by
  simp only [prototype, OrderedMap.get?_insertNew]
  split_ifs with hj
  · cases t.get? id <;> rfl
  · rfl

lemma mem_of_prototype {id : String} {k : CaseKey} (h : prototype t id = some k) :
    ∃ row, (id, row) ∈ t.entries ∧ row.key = k := by
  obtain ⟨row, hrow, hk⟩ := Option.map_eq_some_iff.mp h
  exact ⟨row, (t.get?_eq_some id row).mp hrow, hk⟩

variable (hm : 0 < cfg.tauMerge)
include hm

lemma prototype_stable {id : String} {k : CaseKey} (h : prototype t id = some k) :
    prototype (fileIncident digest cfg ts inc t).1 id = some k := by
  rcases fileIncident_cases digest ts inc t hm with ⟨id', row, hrow, -, -, he⟩ | ⟨-, family, reg, sim, -, he⟩
  · rw [he, prototype_set hrow, h]
  · rw [he, prototype_insertNew]
    split_ifs with hid
    · rw [← hid, h]
      rfl
    · exact h

lemma separated_file (h : Separated cfg t) : Separated cfg (fileIncident digest cfg ts inc t).1 := by
  intro id id' a b hne ha hb
  rcases fileIncident_cases digest ts inc t hm with ⟨j, row, hrow, -, -, he⟩ | ⟨hfar, family, reg, sim, -, he⟩
  · rw [he, prototype_set hrow] at ha hb
    exact h id id' a b hne ha hb
  · rw [he, prototype_insertNew] at ha hb
    have hnew : ∀ {j c}, prototype t j = some c → caseSim inc.key c < cfg.tauMerge := by
      intro j c hc
      obtain ⟨row, hrow, rfl⟩ := mem_of_prototype hc
      exact hfar (j, row) hrow
    split_ifs at ha hb with hi hi'
    · exact (hne (hi.trans hi'.symm)).elim
    · cases hp : prototype t (digest inc.key) with
      | none =>
        simp only [hp, Option.getD_none, Option.some.injEq] at ha
        rw [← ha]
        exact hnew hb
      | some c =>
        rw [hp, Option.getD_some] at ha
        rw [← hi, ha] at hp
        exact h id id' a b hne hp hb
    · cases hp : prototype t (digest inc.key) with
      | none =>
        simp only [hp, Option.getD_none, Option.some.injEq] at hb
        rw [caseSim_comm, ← hb]
        exact hnew ha
      | some c =>
        rw [hp, Option.getD_some] at hb
        rename_i hi'
        rw [← hi', hb] at hp
        exact h id id' a b hne ha hp
    · exact h id id' a b hne ha hb

lemma recurrence_of_shape (h₁ : cfg.tauMerge ≤ 1) (h : Separated cfg t) {id : String} {k : CaseKey}
    (hk : prototype t id = some k) (hs : inc.key.SameShape k) :
    (fileIncident digest cfg ts inc t).2.caseId = id ∧
      (fileIncident digest cfg ts inc t).2.caseRegister = .recurrence := by
  obtain ⟨row, hrow, rfl⟩ := mem_of_prototype hk
  have hone : caseSim inc.key row.key = 1 := (caseSim_congr _ hs).trans (caseSim_self _)
  rcases fileIncident_cases digest ts inc t hm with ⟨j, near, hnear, -, hmax, he⟩ | ⟨hfar, -⟩
  · rw [he]
    refine ⟨?_, rfl⟩
    by_contra hne
    have hsep := h id j _ _ (Ne.symm hne) hk (by rw [prototype, hnear]; rfl)
    have hle := hmax _ hrow
    rw [hone, caseSim_congr _ hs] at hle
    linarith
  · have hlt := hfar _ hrow
    rw [hone] at hlt
    linarith

end OneIncident

section Runs

variable (cfg) in
lemma cases_file (db : Db) (o : Observation) : ((observe digest cfg db o).1.cases = db.cases ∧
    (observe digest cfg db o).1.caseObservations = db.caseObservations) ∨ ∃ inc, incident cfg o.graph = some inc ∧
      (observe digest cfg db o).1.cases = (fileIncident digest cfg o.ts inc db.cases).1 ∧
      (observe digest cfg db o).1.caseObservations = db.caseObservations ++
        [⟨o.ts, (fileIncident digest cfg o.ts inc db.cases).2.caseId, inc.root, inc.key.victims, o.graph⟩] := by
  rw [cases_observe, caseObservations_observe]
  cases incident cfg o.graph with
  | none => exact Or.inl ⟨rfl, by simp⟩
  | some inc =>
    rw [Option.elim_some, Option.map_some, Option.toList_some]
    exact Or.inr ⟨inc, rfl, rfl, rfl⟩

lemma separated_run (hm : 0 < cfg.tauMerge) (xs : List Observation) :
    Separated cfg (Runs.final (observe digest cfg) .empty xs).cases := by
  apply Runs.final_invariant (P := fun db : Db => Separated cfg db.cases)
  · intro id id' a b _ ha
    simp [prototype, Db.empty] at ha
  · intro db hdb o _
    rcases cases_file digest cfg db o with ⟨hc, -⟩ | ⟨inc, -, hc, -⟩
    · rw [hc]
      exact hdb
    · rw [hc]
      exact separated_file digest hm hdb

lemma prototype_run (hm : 0 < cfg.tauMerge) {db : Db} {id : String} {k : CaseKey}
    (h : prototype db.cases id = some k) (ys : List Observation) :
    prototype (Runs.final (observe digest cfg) db ys).cases id = some k := by
  apply Runs.final_invariant (P := fun db : Db => prototype db.cases id = some k) _ ys h
  intro db hdb o _
  rcases cases_file digest cfg db o with ⟨hc, -⟩ | ⟨inc, -, hc, -⟩
  · rw [hc]
    exact hdb
  · rw [hc]
    exact prototype_stable digest hm hdb

end Runs

theorem case_library_separated (cfg : MemoryConfig) (hf : 0 < cfg.tauFamily) (hm : cfg.tauFamily ≤ cfg.tauMerge)
    (h₁ : cfg.tauMerge ≤ 1) (xs : List Observation) :
    let db := Runs.final (observe digest cfg) .empty xs
    (∀ id id' row row', id ≠ id' → db.cases.get? id = some row → db.cases.get? id' = some row' →
      caseSim row.key row'.key < cfg.tauMerge) ∧
    ∀ ys o inc id row, db.cases.get? id = some row → incident cfg o.graph = some inc →
      inc.key.SameShape row.key →
        ∃ v, (observe digest cfg (Runs.final (observe digest cfg) db ys) o).2.caseVerdict = some v ∧
          v.caseId = id ∧ v.caseRegister = .recurrence := by
  intro db
  have hpos := hf.trans_le hm
  constructor
  · intro id id' row row' hne hr hr'
    exact separated_run digest hpos xs id id' _ _ hne (by rw [prototype, hr]; rfl) (by rw [prototype, hr']; rfl)
  · intro ys o inc id row hr hinc hs
    have hk := prototype_run digest hpos (k := row.key) (by rw [prototype, hr]; rfl) ys
    have hsep := separated_run digest hpos (xs ++ ys)
    rw [Runs.final_append] at hsep
    have hfold : (fileIncident digest cfg o.ts inc _).2.caseId = id ∧ _ :=
      recurrence_of_shape digest hpos h₁ hsep hk hs
    refine ⟨_, ?_, hfold⟩
    rw [caseVerdict_observe, hinc]
    rfl

def stormKey : CaseKey :=
  ⟨["cooling-monitor"], ["timescaledb"], "psi_io", some .pvc, [("cooling-monitor", "timescaledb")]⟩

def stormPass : Observation :=
  { diskPass with
    graph := { diskPass.graph with
      rootCauseRanking := [⟨"cooling-monitor-5f-x1", 1, some 60⟩]
      blastRadius := [⟨"timescaledb-7c-z9", 63 / 100, 5⟩] }
    ts := 20 }

def stormDigest : CaseKey → String := fun _ => "366b903e598ed6a0"

def stressorDigest (k : CaseKey) : String := String.join k.stressors

def widerPass : Observation :=
  { stormPass with
    graph := { stormPass.graph with
      edges := stormPass.graph.edges ++
        [⟨"cooling-monitor-5f-x1", "dcim-bridge-6d-k2", .tenths 8, 10, [.write, .pvc]⟩]
      blastRadius := stormPass.graph.blastRadius ++ [⟨"dcim-bridge-6d-k2", 56 / 100, 10⟩] }
    ts := 40 }

def victimDigest : CaseKey → String := fun k => String.intercalate "," k.victims

theorem case_library_separated_wider :
    let db := Runs.final (observe victimDigest {}) .empty [stormPass, widerPass]
    (∃ row row', db.cases.get? "timescaledb" = some row ∧ db.cases.get? "dcim-bridge,timescaledb" = some row' ∧
      60 / 100 ≤ caseSim row.key row'.key ∧ caseSim row.key row'.key < 85 / 100) ∧
    ∃ v, (observe victimDigest {} (Runs.final (observe victimDigest {}) db [diskPass]) stormPass).2.caseVerdict =
      some v ∧ v.caseId = "timescaledb" ∧ v.caseRegister = .recurrence := by
  intro db
  obtain ⟨hfar, hrecurs⟩ := case_library_separated victimDigest {} (by norm_num) (by norm_num) (by norm_num)
    [stormPass, widerPass]
  obtain ⟨inc, hinc, hk⟩ := Option.map_eq_some_iff.mp (by decide +kernel :
    (incident {} stormPass.graph).map Incident.key = some stormKey)
  obtain ⟨row, hrow, hk'⟩ := Option.map_eq_some_iff.mp (by decide +kernel :
    (db.cases.get? "timescaledb").map CaseRow.key = some stormKey)
  obtain ⟨row', hrow', hsim⟩ := Option.map_eq_some_iff.mp (by decide +kernel :
    (db.cases.get? "dcim-bridge,timescaledb").map (fun r => caseSim stormKey r.key) = some (3 / 5))
  have hs : inc.key.SameShape row.key := by
    rw [hk, hk']
    exact ⟨rfl, rfl, rfl, rfl, rfl⟩
  refine ⟨⟨row, row', hrow, hrow', ?_, hfar _ _ row row' (by decide) hrow hrow'⟩, ?_⟩
  · rw [hk', hsim]
    norm_num
  · exact hrecurs [diskPass] stormPass inc _ row hrow hinc hs

section Members

/-- Recorded incidents are close to the prototype of their case; each prototype is the key of an
incident of the run and has named its case. -/
structure Recorded (xs : List Observation) (cfg : MemoryConfig) (db : Db) : Prop where
  close : ∀ ob ∈ db.caseObservations, ∃ inc k, incident cfg ob.graph = some inc ∧
    prototype db.cases ob.caseId = some k ∧ cfg.tauMerge ≤ caseSim inc.key k
  named : ∀ id k, prototype db.cases id = some k →
    digest k = id ∧ ∃ o ∈ xs, ∃ inc, incident cfg o.graph = some inc ∧ inc.key = k

def DigestInjective (cfg : MemoryConfig) (xs : List Observation) : Prop :=
  ∀ o ∈ xs, ∀ o' ∈ xs, ∀ inc inc', incident cfg o.graph = some inc → incident cfg o'.graph = some inc' →
    digest inc.key = digest inc'.key → inc.key = inc'.key

variable {digest} in
lemma digestInjective_of_keys {xs : List Observation}
    (h : ∀ k ∈ xs.filterMap fun o => (incident cfg o.graph).map Incident.key,
      ∀ k' ∈ xs.filterMap fun o => (incident cfg o.graph).map Incident.key, digest k = digest k' → k = k') :
    DigestInjective digest cfg xs := by
  intro o ho o' ho' inc inc' hinc hinc'
  apply h
  · exact List.mem_filterMap.mpr ⟨o, ho, by rw [hinc]; rfl⟩
  · exact List.mem_filterMap.mpr ⟨o', ho', by rw [hinc']; rfl⟩

lemma recorded_file {xs : List Observation} {db : Db} {o : Observation} {inc : Incident}
    (hm : 0 < cfg.tauMerge) (h₁ : cfg.tauMerge ≤ 1) (hd : DigestInjective digest cfg xs) (ho : o ∈ xs)
    (hinc : incident cfg o.graph = some inc) (h : Recorded digest xs cfg db) :
    (∃ k, prototype (fileIncident digest cfg o.ts inc db.cases).1
        (fileIncident digest cfg o.ts inc db.cases).2.caseId = some k ∧ cfg.tauMerge ≤ caseSim inc.key k) ∧
      ∀ id k, prototype (fileIncident digest cfg o.ts inc db.cases).1 id = some k →
        digest k = id ∧ ∃ o ∈ xs, ∃ inc, incident cfg o.graph = some inc ∧ inc.key = k := by
  rcases fileIncident_cases digest o.ts inc db.cases hm with
    ⟨id, row, hrow, hsim, -, he⟩ | ⟨-, family, reg, sim, -, he⟩
  · rw [he]
    refine ⟨⟨row.key, ?_, hsim⟩, ?_⟩
    · rw [prototype_set hrow, prototype, hrow]
      rfl
    · intro id k hk
      rw [prototype_set hrow] at hk
      exact h.named id k hk
  · rw [he]
    -- a case of that name that already existed would have the same key
    have hkey : (prototype db.cases (digest inc.key)).getD inc.key = inc.key := by
      cases hp : prototype db.cases (digest inc.key) with
      | none => rfl
      | some k =>
        obtain ⟨hdk, o', ho', inc', hinc', rfl⟩ := h.named _ k hp
        exact hd o' ho' o ho inc' inc hinc' hinc hdk
    refine ⟨⟨inc.key, ?_, h₁.trans (caseSim_self _).ge⟩, ?_⟩
    · simp only [prototype_insertNew, hkey, if_true]
    · intro id k hk
      rw [prototype_insertNew, hkey] at hk
      split_ifs at hk with hid
      · obtain rfl := Option.some.inj hk
        exact ⟨hid.symm, o, ho, inc, hinc, rfl⟩
      · exact h.named id k hk

lemma recorded_run (hm : 0 < cfg.tauMerge) (h₁ : cfg.tauMerge ≤ 1) (xs : List Observation)
    (hd : DigestInjective digest cfg xs) :
    Recorded digest xs cfg (Runs.final (observe digest cfg) .empty xs) := by
  apply Runs.final_invariant (P := fun db : Db => Recorded digest xs cfg db)
  · constructor
    · intro ob hob
      simp [Db.empty] at hob
    · intro id k hk
      simp [prototype, Db.empty] at hk
  · intro db hdb o ho
    rcases cases_file digest cfg db o with ⟨hc, hob⟩ | ⟨inc, hinc, hc, hob⟩
    · constructor
      · rw [hc, hob]
        exact hdb.close
      · rw [hc]
        exact hdb.named
    · obtain ⟨hnew, hnamed⟩ := recorded_file digest hm h₁ hd ho hinc hdb
      constructor
      · intro ob hmem
        rw [hob] at hmem
        rw [hc]
        rcases List.mem_append.mp hmem with hmem | hmem
        · obtain ⟨inc', k, hi, hk, hsim⟩ := hdb.close ob hmem
          exact ⟨inc', k, hi, prototype_stable digest hm hk, hsim⟩
        · obtain rfl := List.mem_singleton.mp hmem
          obtain ⟨k, hk, hsim⟩ := hnew
          exact ⟨inc, k, hinc, hk, hsim⟩
      · rw [hc]
        exact hnamed

end Members

theorem case_members_similar (cfg : MemoryConfig) (hm : 1 / 2 < cfg.tauMerge) (h₁ : cfg.tauMerge ≤ 1)
    (xs : List Observation) (hd : DigestInjective digest cfg xs) :
    let db := Runs.final (observe digest cfg) .empty xs
    ∀ ob ∈ db.caseObservations, ∀ ob' ∈ db.caseObservations, ob.caseId = ob'.caseId →
      ∃ inc inc', incident cfg ob.graph = some inc ∧ incident cfg ob'.graph = some inc' ∧
        2 * cfg.tauMerge - 1 ≤ caseSim inc.key inc'.key ∧
        inc.key.signal = inc'.key.signal ∧ inc.key.witnessKind = inc'.key.witnessKind ∧
        (cfg.tauMerge = 85 / 100 → cfg.tauFamily = 60 / 100 → cfg.tauFamily ≤ caseSim inc.key inc'.key) := by
  intro db ob hob ob' hob' hid
  have hpos : (0 : ℚ) < cfg.tauMerge := by linarith
  have hrec := recorded_run digest hpos h₁ xs hd
  obtain ⟨inc, k, hinc, hk, hsim⟩ := hrec.close ob hob
  obtain ⟨inc', k', hinc', hk', hsim'⟩ := hrec.close ob' hob'
  rw [hid, hk'] at hk
  obtain rfl := Option.some.inj hk
  rw [caseSim_comm] at hsim'
  obtain ⟨hs, hw⟩ := comparable_of_caseSim (hpos.trans_le hsim)
  obtain ⟨hs', hw'⟩ := comparable_of_caseSim (hpos.trans_le hsim')
  have htri := caseSim_triangle (hpos.trans_le hsim) (hpos.trans_le hsim')
  refine ⟨inc, inc', hinc, hinc', by linarith, hs.trans hs', hw.trans hw', ?_⟩
  intro hmerge hfamily
  rw [hfamily]
  linarith

def spreadPass (struck : List String) (ts : ℚ) : Observation :=
  { diskPass with
    graph := { diskPass.graph with
      edges := ["timescaledb-7c-z9", "dcim-bridge-6d-k2", "power-monitor-8b-q4"].map fun v =>
        ⟨"cooling-monitor-5f-x1", v, .tenths 8, 5, [.write, .pvc]⟩
      rootCauseRanking := [⟨"cooling-monitor-5f-x1", 1, some 60⟩]
      blastRadius := struck.map fun v => ⟨v, 56 / 100, 5⟩ }
    ts := ts }

def spreadRun : List Observation :=
  [spreadPass ["timescaledb-7c-z9", "dcim-bridge-6d-k2", "power-monitor-8b-q4"] 20,
    spreadPass ["timescaledb-7c-z9", "dcim-bridge-6d-k2"] 40,
    spreadPass ["dcim-bridge-6d-k2", "power-monitor-8b-q4"] 60]

theorem case_members_similar_spread :
    let db := Runs.final (observe victimDigest {}) .empty spreadRun
    ∃ ob ∈ db.caseObservations, ∃ ob' ∈ db.caseObservations, ob.ts = 40 ∧ ob'.ts = 60 ∧ ob.caseId = ob'.caseId ∧
      ob.victims = ["dcim-bridge", "timescaledb"] ∧ ob'.victims = ["dcim-bridge", "power-monitor"] ∧
      ∃ inc inc', incident {} ob.graph = some inc ∧ incident {} ob'.graph = some inc' ∧
        2 * (85 / 100 : ℚ) - 1 ≤ caseSim inc.key inc'.key ∧ caseSim inc.key inc'.key < 85 / 100 := by
  intro db
  obtain ⟨ob, hob, ob', hob', hts, hts', hid, hv, hv', hapart⟩ : ∃ ob ∈ db.caseObservations,
      ∃ ob' ∈ db.caseObservations, ob.ts = 40 ∧ ob'.ts = 60 ∧ ob.caseId = ob'.caseId ∧
        ob.victims = ["dcim-bridge", "timescaledb"] ∧ ob'.victims = ["dcim-bridge", "power-monitor"] ∧
        ∀ inc ∈ incident {} ob.graph, ∀ inc' ∈ incident {} ob'.graph, caseSim inc.key inc'.key < 85 / 100 := by
    decide +kernel
  have hd : DigestInjective victimDigest {} spreadRun := digestInjective_of_keys (by decide +kernel)
  obtain ⟨inc, inc', hinc, hinc', hsim, -⟩ :=
    case_members_similar victimDigest {} (by norm_num) (by norm_num) _ hd ob hob ob' hob' hid
  exact ⟨ob, hob, ob', hob', hts, hts', hid, hv, hv', inc, inc', hinc, hinc', hsim, hapart inc hinc inc' hinc'⟩

end CausalEngine.Memory
