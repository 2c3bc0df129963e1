import CausalEngine.Memory.Schema
import CausalEngine.Foundations.Jaccard

/-! The case library. An incident is a verdict whose root owns a source edge. It is folded into the
nearest case, opens a variant of that case's family, or opens a family of its own. -/

namespace CausalEngine.Memory

open Foundations Correlation

def sourceEvidence : List Evidence := [.write]

def sortedSet (l : List String) : List String := l.dedup.insertionSort (· ≤ ·)

structure Incident where
  root : String
  key : CaseKey
  lagStructure : OrderedMap String ℤ
  leadTimeS : Option ℚ

section Fingerprint

variable (cfg : MemoryConfig) (g : PassGraph String)

def dominantWitness (edges : List (Edge String)) : Option Evidence :=
  let physical := (edges.flatMap Edge.evidence).filter (· ∉ [Evidence.stat, .temporal, .write])
  let counts : OrderedMap Evidence ℕ := physical.foldl (fun m ev => m.set ev ((m.get? ev).getD 0 + 1)) .empty
  let byCount := counts.entries.insertionSort fun a b =>
    toLex (-(a.2 : ℤ), a.1.name) ≤ toLex (-(b.2 : ℤ), b.1.name)
  byCount.head?.map Prod.fst

def leadTime : Option ℚ :=
  let etas := g.blastRadius.map fun b => (b.etaS : ℚ)
  let lags := (g.edges.filter fun e => 0 < e.lagS).map fun e => (e.lagS : ℚ)
  if etas ≠ [] then some (etas.sum / etas.length)
  else if lags ≠ [] then some (lags.sum / lags.length)
  else none

def workloadPair (e : Edge String) : String × String := (stableWorkload e.src, stableWorkload e.dst)

def victims (root : String) : List String :=
  let struck := sortedSet ((g.blastRadius.filter fun b => b.pod ≠ "" ∧ stableWorkload b.pod ≠ root).map
    fun b => stableWorkload b.pod)
  if struck ≠ [] then struck
  else sortedSet ((g.edges.map fun e => stableWorkload e.dst).filter (· ≠ root))

def ownsSource (root : String) : Bool :=
  g.edges.any fun e => stableWorkload e.src = root && e.evidence.any (· ∈ sourceEvidence)

def incident : Option Incident :=
  match g.rootCauseRanking.head? with
  | none => none
  | some top =>
    let root := stableWorkload top.pod
    if g.edges = [] ∨ ownsSource g root = false ∨ victims g root = [] then none
    else some
      { root := root
        key :=
          { stressors := [root]
            victims := victims g root
            signal := cfg.signal
            witnessKind := dominantWitness g.edges
            motif := (g.edges.map workloadPair).insertionSort fun a b => toLex a ≤ toLex b }
        lagStructure := .ofList (g.edges.map fun e => ((workloadPair e).1 ++ "->" ++ (workloadPair e).2, e.lagS))
        leadTimeS := leadTime g }

variable {cfg g} in
lemma incident_spec {inc : Incident} (h : incident cfg g = some inc) : ∃ top, g.rootCauseRanking.head? = some top ∧
    inc.root = stableWorkload top.pod ∧ inc.key.stressors = [inc.root] ∧ inc.leadTimeS = leadTime g ∧
      ∃ e ∈ g.edges, e.isSource ∧ stableWorkload e.src = inc.root := by
  simp only [incident] at h
  cases hr : g.rootCauseRanking.head? with
  | none => simp [hr] at h
  | some top =>
    simp only [hr] at h
    split_ifs at h with hno
    simp only [not_or, Bool.not_eq_false] at hno
    obtain ⟨e, he, hs⟩ := List.any_eq_true.mp hno.2.1
    obtain ⟨hroot, hwrite⟩ := Bool.and_eq_true_iff.mp hs
    obtain ⟨ev, hev, hsource⟩ := List.any_eq_true.mp hwrite
    obtain rfl : ev = .write := by simpa [sourceEvidence] using hsource
    obtain rfl := Option.some.inj h
    exact ⟨top, rfl, rfl, rfl, rfl, e, he, hev, of_decide_eq_true hroot⟩

end Fingerprint

def caseSim (a b : CaseKey) : ℚ :=
  if a.signal ≠ b.signal ∨ a.witnessKind ≠ b.witnessKind then 0
  else 40 / 100 * jaccard a.victims.toFinset b.victims.toFinset +
    20 / 100 * jaccard a.stressors.toFinset b.stressors.toFinset +
    40 / 100 * jaccard a.motif.toFinset b.motif.toFinset

inductive Register
  | recurrence | variant | novel
deriving DecidableEq

structure CaseVerdict where
  caseId : String
  caseFamily : String
  caseRegister : Register
  caseSim : ℚ
deriving DecidableEq

def nearer (key : CaseKey) (best : Option (String × CaseRow) × ℚ) (e : String × CaseRow) :
    Option (String × CaseRow) × ℚ :=
  if best.2 < caseSim key e.2.key then (some e, caseSim key e.2.key) else best

def nearestCase (t : CaseTable) (key : CaseKey) : Option (String × CaseRow) × ℚ :=
  t.entries.foldl (nearer key) (none, 0)

def mergedLead (row : CaseRow) (lead : Option ℚ) : Option ℚ :=
  match lead, row.typicalLeadTimeS with
  | some l, some old => some ((old * row.occurrences + l) / (row.occurrences + 1))
  | some l, none => some l
  | none, old => old

def recurringRow (ts : ℚ) (inc : Incident) (row : CaseRow) : CaseRow :=
  { row with
    occurrences := row.occurrences + 1
    lastSeenTs := ts
    typicalLeadTimeS := mergedLead row inc.leadTimeS }

def openedRow (ts : ℚ) (inc : Incident) (family : String) : CaseRow :=
  ⟨inc.key, inc.lagStructure, 1, ts, ts, inc.leadTimeS, some family⟩

section Filing

variable (digest : CaseKey → String) (cfg : MemoryConfig) (ts : ℚ)

def fileIncident (inc : Incident) (t : CaseTable) : CaseTable × CaseVerdict :=
  let newId := digest inc.key
  let (best, bestSim) := nearestCase t inc.key
  match best with
  | some (id, row) =>
    let family := row.familyId.getD id
    if cfg.tauMerge ≤ bestSim then
      (t.set id (recurringRow ts inc row), ⟨id, family, .recurrence, roundTo 3 bestSim⟩)
    else if cfg.tauFamily ≤ bestSim then
      (t.insertNew newId (openedRow ts inc family), ⟨newId, family, .variant, roundTo 3 bestSim⟩)
    else (t.insertNew newId (openedRow ts inc newId), ⟨newId, newId, .novel, roundTo 3 bestSim⟩)
  | none => (t.insertNew newId (openedRow ts inc newId), ⟨newId, newId, .novel, roundTo 3 bestSim⟩)

def promoteCase (g : PassGraph String) (db : Db) : Db × Option CaseVerdict :=
  match incident cfg g with
  | none => (db, none)
  | some inc =>
    let (cases, verdict) := fileIncident digest cfg ts inc db.cases
    ({ db with
        cases := cases
        caseObservations := db.caseObservations ++ [⟨ts, verdict.caseId, inc.root, inc.key.victims, g⟩] },
      some verdict)

end Filing

end CausalEngine.Memory
