import CausalEngine.Foundations.Json
import CausalEngine.Memory.Observe

/-! The case library as it is stored: the members of a fingerprint are columns of JSON text, which are written once and
read back whenever an incident is compared with the case. -/

namespace CausalEngine.Memory

open Foundations Correlation

def jsonText (v : Json) : Json.Text := Json.dumps [] v.sortKeys

def loadJson (value : Option Json.Text) (fallback : Json) : Json :=
  match value with
  | none | some [] => fallback
  | some text => (Json.loads text).getD fallback

def strings (l : List String) : Json := .arr (l.map .str)

def motifJson (motif : List (String × String)) : Json :=
  .arr (motif.map fun m => .obj [("src", .str m.1), ("dst", .str m.2)])

def lagJson (lags : OrderedMap String ℤ) : Json := .obj (lags.entries.map fun e => (e.1, .int e.2))

def witnessJson (k : Option Evidence) : Json := k.elim .null fun ev => .str ev.name

def keyJson (key : CaseKey) : Json.Text :=
  jsonText (.obj [("stressors", strings key.stressors), ("victims", strings key.victims), ("signal", .str key.signal),
    ("witness_kind", witnessJson key.witnessKind), ("motif", motifJson key.motif)])

structure CaseColumns where
  keyJson : Json.Text
  stressorsJson : Json.Text
  victimsJson : Json.Text
  signal : String
  witnessKind : Option String
  motifJson : Json.Text
  lagStructureJson : Json.Text
  occurrences : ℕ
  firstSeenTs : ℚ
  lastSeenTs : ℚ
  typicalLeadTimeS : Option ℚ
  familyId : Option String

abbrev StoredCases : Type := OrderedMap String CaseColumns

section Reading

def asString : Json → Option String
  | .str s => some s
  | _ => none

def field (k : String) : Json → Option Json
  | .obj l => l.reverse.lookup k
  | _ => none

def readStrings : Json → Option (List String)
  | .arr l => l.mapM asString
  | _ => none

def readMotif : Json → Option (List (String × String))
  | .arr l => l.mapM fun m => ((field "src" m).bind asString).bind fun src =>
      ((field "dst" m).bind asString).map fun dst => (src, dst)
  | _ => none

def storedSim (fp : CaseKey) (crow : CaseColumns) : Option ℚ :=
  if fp.signal ≠ crow.signal ∨ (fp.witnessKind.map Evidence.name).getD "" ≠ crow.witnessKind.getD "" then some 0
  else
    (readStrings (loadJson (some crow.victimsJson) (.arr []))).bind fun cv =>
    (readStrings (loadJson (some crow.stressorsJson) (.arr []))).bind fun cs =>
    (readMotif (loadJson (some crow.motifJson) (.arr []))).map fun cm =>
      40 / 100 * jaccard fp.victims.toFinset cv.toFinset + 20 / 100 * jaccard fp.stressors.toFinset cs.toFinset +
        40 / 100 * jaccard fp.motif.toFinset cm.toFinset

def storedNearer (fp : CaseKey) (best : Option (String × CaseColumns) × ℚ) (e : String × CaseColumns) :
    Option (Option (String × CaseColumns) × ℚ) :=
  (storedSim fp e.2).map fun s => if best.2 < s then (some e, s) else best

def storedNearest (t : StoredCases) (fp : CaseKey) : Option (Option (String × CaseColumns) × ℚ) :=
  t.entries.foldlM (storedNearer fp) (none, 0)

end Reading

section Filing

variable (sha : Json.Text → String) (cfg : MemoryConfig)

def storedLead (row : CaseColumns) (lead : Option ℚ) : Option ℚ :=
  match lead, row.typicalLeadTimeS with
  | some l, some old => some ((old * row.occurrences + l) / (row.occurrences + 1))
  | some l, none => some l
  | none, old => old

def recurringColumns (ts : ℚ) (inc : Incident) (row : CaseColumns) : CaseColumns :=
  { row with
    occurrences := row.occurrences + 1
    lastSeenTs := ts
    typicalLeadTimeS := storedLead row inc.leadTimeS }

def openedColumns (ts : ℚ) (inc : Incident) (family : String) : CaseColumns where
  keyJson := keyJson inc.key
  stressorsJson := jsonText (strings [inc.root])
  victimsJson := jsonText (strings inc.key.victims)
  signal := inc.key.signal
  witnessKind := inc.key.witnessKind.map Evidence.name
  motifJson := jsonText (motifJson inc.key.motif)
  lagStructureJson := jsonText (lagJson inc.lagStructure)
  occurrences := 1
  firstSeenTs := ts
  lastSeenTs := ts
  typicalLeadTimeS := inc.leadTimeS
  familyId := some family

def fileStored (ts : ℚ) (inc : Incident) (t : StoredCases) : Option (StoredCases × CaseVerdict) :=
  let newId := sha (keyJson inc.key)
  (storedNearest t inc.key).map fun nearest => match nearest.1 with
    | some (id, row) =>
      let family := row.familyId.getD id
      if cfg.tauMerge ≤ nearest.2 then
        (t.set id (recurringColumns ts inc row), ⟨id, family, .recurrence, roundTo 3 nearest.2⟩)
      else if cfg.tauFamily ≤ nearest.2 then
        (t.insertNew newId (openedColumns ts inc family), ⟨newId, family, .variant, roundTo 3 nearest.2⟩)
      else (t.insertNew newId (openedColumns ts inc newId), ⟨newId, newId, .novel, roundTo 3 nearest.2⟩)
    | none => (t.insertNew newId (openedColumns ts inc newId), ⟨newId, newId, .novel, roundTo 3 nearest.2⟩)

def promoteStored (t : StoredCases) (o : Observation) : Option (StoredCases × Option CaseVerdict) :=
  match incident cfg o.graph with
  | none => some (t, none)
  | some inc => (fileStored sha cfg o.ts inc t).map fun r => (r.1, some r.2)

end Filing

section RoundTrip

lemma sortKeys_str (s : String) : (Json.str s).sortKeys = .str s := rfl

lemma sortAll_strings (l : List String) : Json.sortAll (l.map .str) = l.map .str := by
  induction l with
  | nil => rfl
  | cons s l ih => rw [List.map_cons, Json.sortAll, ih, sortKeys_str]

lemma sortKeys_strings (l : List String) : (strings l).sortKeys = strings l := by
  rw [strings, Json.sortKeys, sortAll_strings]

lemma sortKeys_pair (src dst : String) :
    (Json.obj [("src", .str src), ("dst", .str dst)]).sortKeys = .obj [("dst", .str dst), ("src", .str src)] := by
  have hle : ¬ "src" ≤ "dst" := by decide
  simp [Json.sortKeys, Json.sortMembers, hle]

lemma sortKeys_motif (motif : List (String × String)) : (motifJson motif).sortKeys =
    .arr (motif.map fun m => .obj [("dst", .str m.2), ("src", .str m.1)]) := by
  rw [motifJson, Json.sortKeys]
  congr 1
  induction motif with
  | nil => rfl
  | cons m motif ih => rw [List.map_cons, Json.sortAll, ih, sortKeys_pair, List.map_cons]

lemma loadJson_jsonText (v fallback : Json) : loadJson (some (jsonText v)) fallback = v.sortKeys := by
  have hpos := Json.dumps_pos [] v.sortKeys
  have hload := Json.loads_dumps (List.forall_mem_nil _) v.sortKeys
  rw [jsonText]
  cases htext : Json.dumps [] v.sortKeys with
  | nil => simp [htext] at hpos
  | cons c text => rw [loadJson, ← htext, hload, Option.getD_some]; simp

lemma mapM_map {α β : Type} {f : α → β} {g : β → Option α} (h : ∀ a, g (f a) = some a) (l : List α) :
    (l.map f).mapM g = some l := by
  induction l with
  | nil => rfl
  | cons a l ih => simp [List.mapM_cons, h, ih]

lemma readStrings_load (l : List String) (fallback : Json) :
    readStrings (loadJson (some (jsonText (strings l))) fallback) = some l := by
  rw [loadJson_jsonText, sortKeys_strings]
  exact mapM_map (f := Json.str) (fun _ => rfl) l

lemma readMotif_load (motif : List (String × String)) (fallback : Json) :
    readMotif (loadJson (some (jsonText (motifJson motif))) fallback) = some motif := by
  rw [loadJson_jsonText, sortKeys_motif, readMotif]
  apply mapM_map
  intro m
  have hsrc : field "src" (.obj [("dst", .str m.2), ("src", .str m.1)]) = some (.str m.1) := rfl
  have hdst : field "dst" (.obj [("dst", .str m.2), ("src", .str m.1)]) = some (.str m.2) := rfl
  rw [hsrc, hdst]
  rfl

lemma name_injective : Function.Injective Evidence.name := by
  intro a b h
  cases a <;> cases b <;> first | rfl | simp [Evidence.name] at h

lemma name_ne (ev : Evidence) : ev.name ≠ "" := by
  cases ev <;> decide

lemma witness_text (k j : Option Evidence) :
    (k.map Evidence.name).getD "" = (j.map Evidence.name).getD "" ↔ k = j := by
  cases k with
  | none =>
    cases j with
    | none => simp
    | some b => simpa using (name_ne b).symm
  | some a =>
    cases j with
    | none => simpa using name_ne a
    | some b => simpa using name_injective.eq_iff

lemma witnessJson_injective : Function.Injective witnessJson := by
  intro k j h
  cases k with
  | none =>
    cases j with
    | none => rfl
    | some b => cases h
  | some a =>
    cases j with
    | none => cases h
    | some b => rw [name_injective (Json.str.inj h)]

lemma sortKeys_witness (k : Option Evidence) : (witnessJson k).sortKeys = witnessJson k := by
  cases k <;> rfl

lemma sortKeys_key (key : CaseKey) : (Json.obj [("stressors", strings key.stressors),
      ("victims", strings key.victims), ("signal", .str key.signal), ("witness_kind", witnessJson key.witnessKind),
      ("motif", motifJson key.motif)]).sortKeys =
    .obj [("motif", (motifJson key.motif).sortKeys), ("signal", .str key.signal), ("stressors", strings key.stressors),
      ("victims", strings key.victims), ("witness_kind", witnessJson key.witnessKind)] := by
  have horder : ¬ "witness_kind" ≤ "motif" ∧ ¬ "signal" ≤ "motif" ∧ ¬ "victims" ≤ "motif" ∧ ¬ "victims" ≤ "signal" ∧
      "victims" ≤ "witness_kind" ∧ ¬ "stressors" ≤ "motif" ∧ ¬ "stressors" ≤ "signal" ∧ "stressors" ≤ "victims" := by
    decide
  simp [Json.sortKeys, Json.sortMembers, sortKeys_strings, sortKeys_witness, horder]

lemma strings_injective : Function.Injective strings := by
  intro l l' h
  exact List.map_injective_iff.mpr (fun _ _ => Json.str.inj) (Json.arr.inj h)

lemma keyJson_injective : Function.Injective keyJson := by
  intro a b h
  have hkeys := Json.dumps_injective (List.forall_mem_nil _) h
  have hk := Json.obj.inj ((sortKeys_key a).symm.trans (hkeys.trans (sortKeys_key b)))
  simp only [List.cons.injEq, Prod.mk.injEq, true_and, and_true, Json.str.injEq, sortKeys_motif, Json.arr.injEq] at hk
  obtain ⟨hmotif, hsignal, hstressors, hvictims, hwitness⟩ := hk
  have hpairs : a.motif = b.motif := by
    refine List.map_injective_iff.mpr (fun m m' hm => ?_) hmotif
    simp only [Json.obj.injEq, List.cons.injEq, Prod.mk.injEq, true_and, and_true, Json.str.injEq] at hm
    exact Prod.ext hm.2 hm.1
  cases a
  cases b
  simp only [CaseKey.mk.injEq]
  exact ⟨strings_injective hstressors, strings_injective hvictims, hsignal, witnessJson_injective hwitness, hpairs⟩

end RoundTrip

section Refinement

variable {sha : Json.Text → String} {cfg : MemoryConfig} {t : CaseTable}

def CaseRow.columns (row : CaseRow) : CaseColumns where
  keyJson := keyJson row.key
  stressorsJson := jsonText (strings row.key.stressors)
  victimsJson := jsonText (strings row.key.victims)
  signal := row.key.signal
  witnessKind := row.key.witnessKind.map Evidence.name
  motifJson := jsonText (motifJson row.key.motif)
  lagStructureJson := jsonText (lagJson row.lagStructure)
  occurrences := row.occurrences
  firstSeenTs := row.firstSeenTs
  lastSeenTs := row.lastSeenTs
  typicalLeadTimeS := row.typicalLeadTimeS
  familyId := row.familyId

def CaseTable.stored (t : CaseTable) : StoredCases := t.mapVals fun _ => CaseRow.columns

lemma storedSim_columns (fp : CaseKey) (row : CaseRow) : storedSim fp row.columns = some (caseSim fp row.key) := by
  rw [storedSim, caseSim]
  simp only [CaseRow.columns, ne_eq, witness_text, readStrings_load, readMotif_load, Option.bind_some, Option.map_some]
  split_ifs <;> rfl

def storedBest (best : Option (String × CaseRow) × ℚ) : Option (String × CaseColumns) × ℚ :=
  (best.1.map fun e => (e.1, e.2.columns), best.2)

lemma storedNearer_columns (fp : CaseKey) (best : Option (String × CaseRow) × ℚ) (e : String × CaseRow) :
    storedNearer fp (storedBest best) (e.1, e.2.columns) = some (storedBest (nearer fp best e)) := by
  rw [storedNearer, storedSim_columns, Option.map_some, nearer]
  split_ifs <;> simp_all [storedBest]

lemma storedNearest_columns (fp : CaseKey) : storedNearest t.stored fp = some (storedBest (nearestCase t fp)) := by
  have hfold : ∀ (l : List (String × CaseRow)) best, (l.map fun e => (e.1, e.2.columns)).foldlM (storedNearer fp)
      (storedBest best) = some (storedBest (l.foldl (nearer fp) best)) := by
    intro l
    induction l with
    | nil => exact fun _ => rfl
    | cons e l ih =>
      intro best
      rw [List.map_cons, List.foldlM_cons, storedNearer_columns]
      exact ih _
  exact hfold t.entries (none, 0)

lemma recurring_columns (ts : ℚ) (inc : Incident) (row : CaseRow) :
    (recurringRow ts inc row).columns = recurringColumns ts inc row.columns := rfl

lemma opened_columns {inc : Incident} (h : inc.key.stressors = [inc.root]) (ts : ℚ) (family : String) :
    (openedRow ts inc family).columns = openedColumns ts inc family := by
  rw [openedColumns, ← h]
  rfl

lemma fileStored_columns {inc : Incident} (h : inc.key.stressors = [inc.root]) (ts : ℚ) :
    fileStored sha cfg ts inc t.stored = some ((fileIncident (sha ∘ keyJson) cfg ts inc t).1.stored,
      (fileIncident (sha ∘ keyJson) cfg ts inc t).2) := by
  have hopen : ∀ id family, (t.insertNew id (openedRow ts inc family)).mapVals (fun _ => CaseRow.columns) =
      OrderedMap.insertNew t.stored id (openedColumns ts inc family) := by
    intro id family
    rw [OrderedMap.mapVals_insertNew, opened_columns h]
    rfl
  rw [fileStored, storedNearest_columns, Option.map_some, fileIncident, Function.comp_apply]
  cases hnear : nearestCase t inc.key with
  | mk best sim =>
    cases best with
    | none => exact congrArg some (Prod.ext (hopen _ _).symm rfl)
    | some e =>
      simp only [storedBest, Option.map_some]
      by_cases hmerge : cfg.tauMerge ≤ sim
      · simp only [hmerge, if_true, CaseTable.stored, OrderedMap.mapVals_set, recurring_columns]
        rfl
      · simp only [hmerge, if_false]
        by_cases hfamily : cfg.tauFamily ≤ sim
        · simp only [hfamily, if_true]
          exact congrArg some (Prod.ext (hopen _ _).symm rfl)
        · simp only [hfamily, if_false]
          exact congrArg some (Prod.ext (hopen _ _).symm rfl)

end Refinement

section Runs

variable (sha : Json.Text → String) (cfg : MemoryConfig)

def observed (s : Db × List (Option CaseVerdict)) (o : Observation) : Db × List (Option CaseVerdict) :=
  let r := observe (sha ∘ keyJson) cfg s.1 o
  (r.1, s.2 ++ [r.2.caseVerdict])

def storedObserved (s : StoredCases × List (Option CaseVerdict)) (o : Observation) :
    Option (StoredCases × List (Option CaseVerdict)) :=
  (promoteStored sha cfg s.1 o).map fun r => (r.1, s.2 ++ [r.2])

lemma storedObserved_step (s : Db × List (Option CaseVerdict)) (o : Observation) :
    storedObserved sha cfg (s.1.cases.stored, s.2) o =
      some ((observed sha cfg s o).1.cases.stored, (observed sha cfg s o).2) := by
  simp only [storedObserved, promoteStored, observed, cases_observe, caseVerdict_observe]
  cases hinc : incident cfg o.graph with
  | none => rfl
  | some inc =>
    obtain ⟨-, -, -, hstressors, -⟩ := incident_spec hinc
    dsimp only
    rw [fileStored_columns hstressors]
    rfl

end Runs

/-- The library that is kept as JSON text behaves as the one that is kept as values: over any passes no column fails to
be read, every incident is filed under the same case with the same similarity, and the rows are the texts of the rows.
The digest is taken of a text that no other fingerprint has. -/
theorem stored_library (sha : Json.Text → String) (cfg : MemoryConfig) (os : List Observation) :
    os.foldlM (storedObserved sha cfg) (.empty, []) =
      some ((os.foldl (observed sha cfg) (.empty, [])).1.cases.stored, (os.foldl (observed sha cfg) (.empty, [])).2) ∧
    Function.Injective keyJson := by
  refine ⟨?_, keyJson_injective⟩
  suffices hrun : ∀ s : Db × List (Option CaseVerdict), os.foldlM (storedObserved sha cfg) (s.1.cases.stored, s.2) =
      some ((os.foldl (observed sha cfg) s).1.cases.stored, (os.foldl (observed sha cfg) s).2) from hrun (.empty, [])
  induction os with
  | nil => exact fun _ => rfl
  | cons o os ih =>
    intro s
    rw [List.foldlM_cons, storedObserved_step]
    exact ih _

end CausalEngine.Memory
