import CausalEngine.Correlation.Basic
import Mathlib.Data.String.Basic

/-! The tables of the graph memory. Pod names change at every restart, so all but the archived graphs
are keyed by workload. -/

namespace CausalEngine.Memory

open Foundations Correlation

def stableWorkload (pod : String) : String :=
  let parts := (pod.toList.splitOn '-').map String.ofList
  if 2 < parts.length then String.intercalate "-" (parts.take (parts.length - 2)) else pod

structure MemoryConfig where
  signal : String := "psi_io"
  alpha : ℚ := 4 / 10
  decay : ℚ := 1 / 10
  showAt : ℚ := 6 / 10
  hideAt : ℚ := 25 / 100
  prior : ℚ := 2 / 10
  floorFrac : ℚ := 4 / 10
  tauMerge : ℚ := 85 / 100
  tauFamily : ℚ := 60 / 100
  baseAlpha : ℚ := 5 / 100
  devK : ℚ := 4
  madFloor : ℚ := 1 / 100
  baseMinN : ℕ := 12

inductive EdgeState
  | active | confirming | decaying | hidden | steady
deriving DecidableEq

structure EdgeRow where
  confidence : ℚ
  r : Coef
  lagS : ℤ
  evidence : List Evidence
  hits : ℕ
  visible : Bool
  state : EdgeState
  firstSeenTs : ℚ
  lastSeenTs : ℚ
  updatedTs : ℚ
  baseConf : ℚ
deriving DecidableEq

structure EdgeKey where
  src : String
  dst : String
  signal : String
deriving DecidableEq

structure CaseKey where
  stressors : List String
  victims : List String
  signal : String
  witnessKind : Option Evidence
  motif : List (String × String)
deriving DecidableEq

/-- A case. The columns for stressors, victims, signal, witness and motif repeat the members of the
key that was stored with the case and are never written again. -/
structure CaseRow where
  key : CaseKey
  lagStructure : OrderedMap String ℤ
  occurrences : ℕ
  firstSeenTs : ℚ
  lastSeenTs : ℚ
  typicalLeadTimeS : Option ℚ
  familyId : Option String
deriving DecidableEq

structure CaseObservation where
  ts : ℚ
  caseId : String
  root : String
  victims : List String
  graph : PassGraph String
deriving DecidableEq

structure BaselineRow where
  median : ℚ
  mad : ℚ
  n : ℕ
  updatedTs : ℚ
deriving DecidableEq

abbrev EdgeTable := OrderedMap EdgeKey EdgeRow

abbrev CaseTable := OrderedMap String CaseRow

abbrev BaselineTable := OrderedMap (String × String) BaselineRow

structure Db where
  edgeMemory : EdgeTable
  cases : CaseTable
  caseObservations : List CaseObservation
  graphSnapshots : List (ℚ × PassGraph String)
  baselines : BaselineTable
  openMistakes : ℕ

def Db.empty : Db := ⟨.empty, .empty, [], [], .empty, 0⟩

example : stableWorkload "cooling-monitor-59584cbf7d-6szhd" = "cooling-monitor" ∧
    stableWorkload "dcim-bridge" = "dcim-bridge" := by decide

end CausalEngine.Memory
