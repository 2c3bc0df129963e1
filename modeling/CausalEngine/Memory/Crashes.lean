import CausalEngine.Memory.PassWrites
import CausalEngine.Memory.StartUp

/-! The process dies at any statement or commit, of a start or of a pass, and is started again. The connection dies
with it: unlike a pass that raises, one that is killed leaves nothing pending. -/

namespace CausalEngine.Memory

open Foundations

inductive Happening
  | pass (o : Observation)
  | passKilled (o : Observation) (stop : ℕ)
  | start (ts : ℚ)
  | startKilled (ts : ℚ) (stop : ℕ)

def Happening.finished : Happening → Option Observation
  | .pass o => some o
  | _ => none

def Happening.learned (cfg : MemoryConfig) : Happening → Option Observation
  | .pass o => some o
  | .passKilled o n => if (baselineWrites cfg o).length < n then some o else none
  | _ => none

def Db.withoutBaselines (db : Db) : Db := { db with baselines := .empty }

structure Settled (cfg : MemoryConfig) (s : Store) : Prop where
  tables : ∀ t, t ∈ s.tables
  version : s.schemaVersion = some currentVersion
  recorded : ∀ ts, s.recordModelVersion (memoryVersion cfg ts) = s

section Happen

variable (digest : CaseKey → String) (cfg : MemoryConfig)

def onDb (s : Store) (ops : List (Connection Db → Connection Db)) : Store :=
  { s with db := (Connection.carryOut ⟨s.db, s.db⟩ ops).committed }

def happen (s : Store) : Happening → Store × Option MemoryGraph
  | .pass o => (onDb s (operations digest cfg o s.db), some (observe digest cfg s.db o).2)
  | .passKilled o n => (onDb s ((operations digest cfg o s.db).dropLast.take n), none)
  | .start ts => (started cfg ts s, none)
  | .startKilled ts n => (cutOff cfg ts n s, none)

variable {cfg} {s : Store}

lemma recorded_again (v w : ModelVersion) (hcomponent : w.component = v.component) (hversion : w.version = v.version)
    (hparams : w.params = v.params) :
    (s.recordModelVersion v).recordModelVersion w = s.recordModelVersion v := by
  rw [Store.recordModelVersion]
  refine if_pos ?_
  rw [Store.recordModelVersion]
  split_ifs with h
  · rwa [hcomponent, hversion, hparams]
  · simp [hcomponent, hversion, hparams]

lemma started_settled (ts : ℚ) (s : Store) : Settled cfg (started cfg ts s) where
  tables := started_full cfg ts s
  version := started_version cfg ts s
  recorded ts' := by
    rw [started_eq]
    exact recorded_again _ _ rfl rfl rfl

lemma Settled.recorded_db (h : Settled cfg s) (db : Db) (ts : ℚ) :
    ({ s with db := db } : Store).recordModelVersion (memoryVersion cfg ts) = { s with db := db } := by
  have hs := h.recorded ts
  rw [Store.recordModelVersion] at hs ⊢
  split_ifs at hs with hknown
  · exact if_pos hknown
  · have hlen := congrArg (fun s : Store => s.modelVersions.length) hs
    simp at hlen

lemma Settled.withDb (h : Settled cfg s) (db : Db) : Settled cfg { s with db := db } :=
  ⟨h.tables, h.version, h.recorded_db db⟩

lemma Settled.started (h : Settled cfg s) (ts : ℚ) : started cfg ts s = s := by
  rw [started_eq, created_eq_self h.tables, migrated_eq_self h.version, h.recorded]

lemma Settled.cutOff (h : Settled cfg s) (ts : ℚ) (n : ℕ) : cutOff cfg ts n s = s := by
  have hidle : ∀ n, Connection.carryOut ⟨s, s⟩ ((startOperations cfg ts s).take n) = ⟨s, s⟩ := by
    rw [startOperations, created_eq_self h.tables, migration, if_pos h.version, List.append_nil]
    have hschema : ∀ n, Connection.carryOut ⟨s, s⟩
        (((schema.map fun t => Connection.execCommitted (Store.create · t))).take n) = ⟨s, s⟩ := by
      intro n
      rw [← List.map_take, carryOut_creates, foldl_create_eq_self fun t _ => h.tables t]
    have hall := hschema schema.length
    rw [List.take_of_length_le (by rw [List.length_map])] at hall
    have hcommit : ∀ n, Connection.carryOut ⟨s, s⟩ ([Connection.commit].take n) = ⟨s, s⟩ := by
      intro n
      cases n with
      | zero => rfl
      | succ n =>
        rw [List.take_of_length_le (by simp)]
        rfl
    refine Connection.interrupted_append (P := fun c => c = ⟨s, s⟩) ?_ ?_
    · refine Connection.interrupted_append (P := fun c => c = ⟨s, s⟩) hschema ?_
      rwa [hall]
    · rw [Connection.carryOut_append, hall]
      intro n
      apply Connection.interrupted_eq_self rfl
      cases n with
      | zero => rfl
      | succ n =>
        rw [List.take_of_length_le (by simp)]
        exact h.recorded ts
  exact congrArg Connection.committed (hidle n)

end Happen

section Whole

variable (digest : CaseKey → String) {cfg : MemoryConfig} {s : Store} {o : Observation}

lemma operations_dropLast (db : Db) : (operations digest cfg o db).dropLast =
    (baselineWrites cfg o).map Connection.exec ++ ([Connection.commit] ++
      (statements digest cfg o (passWrites digest cfg o db.edgeMemory db.cases)).map Connection.exec) := by
  rw [operations, Connection.transaction, Connection.transaction, ← List.append_assoc, List.dropLast_concat,
    List.append_assoc]

lemma killed_committed (db : Db) (n : ℕ) :
    (Connection.carryOut ⟨db, db⟩ ((operations digest cfg o db).dropLast.take n)).committed =
      if (baselineWrites cfg o).length < n then { db with baselines := updateBaselines cfg o.ts o.vectors db.baselines }
      else db := by
  rw [operations_dropLast, List.take_append, Connection.carryOut_append, List.length_map]
  split_ifs with hn
  · obtain ⟨k, rfl⟩ := Nat.exists_eq_add_of_lt hn
    have hrest : (baselineWrites cfg o).length + k + 1 - (baselineWrites cfg o).length = k + 1 := by omega
    rw [List.take_of_length_le (by rw [List.length_map]; omega), hrest, Connection.carryOut_exec,
      baselineWrites_written, List.singleton_append, List.take_succ_cons]
    exact Connection.committed_interrupted_exec _ _ k
  · have hrest : n - (baselineWrites cfg o).length = 0 := by omega
    rw [hrest, List.take_zero]
    exact Connection.committed_interrupted_exec _ _ n

lemma pass_committed (s : Store) (o : Observation) :
    onDb s (operations digest cfg o s.db) = { s with db := (observe digest cfg s.db o).1 } := by
  rw [onDb]
  exact congrArg (fun c : Connection Db => { s with db := c.committed }) (operations_complete digest cfg ⟨s.db, s.db⟩)

variable (cfg) in
lemma observe_withoutBaselines {db db' : Db} (h : db.withoutBaselines = db'.withoutBaselines) (o : Observation) :
    (observe digest cfg db o).1.withoutBaselines = (observe digest cfg db' o).1.withoutBaselines ∧
      (observe digest cfg db o).2 = (observe digest cfg db' o).2 := by
  obtain ⟨edges, cases, observations, snapshots, baselines, mistakes⟩ := db
  obtain ⟨edges', cases', observations', snapshots', baselines', mistakes'⟩ := db'
  simp only [Db.withoutBaselines, Db.mk.injEq] at h
  obtain ⟨rfl, rfl, rfl, rfl, -, rfl⟩ := h
  simp only [observe, remember, promoteCase]
  cases incident cfg o.graph with
  | none =>
    dsimp only
    split_ifs
    · exact ⟨rfl, rfl⟩
    · exact ⟨rfl, rfl⟩
  | some inc =>
    dsimp only
    split_ifs
    · exact ⟨rfl, rfl⟩
    · exact ⟨rfl, rfl⟩

lemma baselines_happen (h : Settled cfg s) (x : Happening) : (happen digest cfg s x).1.db.baselines =
    ((x.learned cfg).toList.foldl (fun b o => updateBaselines cfg o.ts o.vectors b) s.db.baselines) := by
  cases x with
  | pass o =>
    rw [happen, pass_committed]
    exact baselines_observe digest cfg s.db o
  | passKilled o n =>
    rw [happen, onDb, killed_committed, Happening.learned]
    split_ifs <;> rfl
  | start ts => rw [happen, h.started]; rfl
  | startKilled ts n => rw [happen, h.cutOff]; rfl

lemma happen_store (h : Settled cfg s) (x : Happening) : ∃ db, (happen digest cfg s x).1 = { s with db := db } := by
  cases x with
  | pass o => exact ⟨_, rfl⟩
  | passKilled o n => exact ⟨_, rfl⟩
  | start ts => exact ⟨s.db, h.started ts⟩
  | startKilled ts n => exact ⟨s.db, h.cutOff ts n⟩

lemma happen_whole (h : Settled cfg s) {db : Db} (hdb : s.db.withoutBaselines = db.withoutBaselines) (x : Happening) :
    (happen digest cfg s x).1.db.withoutBaselines =
      (Runs.final (observe digest cfg) db x.finished.toList).withoutBaselines ∧
    (happen digest cfg s x).2.toList = Runs.outputs (observe digest cfg) db x.finished.toList := by
  cases x with
  | pass o =>
    obtain ⟨hfinal, houtput⟩ := observe_withoutBaselines digest cfg hdb o
    rw [happen, pass_committed]
    exact ⟨hfinal, congrArg (fun g => [g]) houtput⟩
  | passKilled o n =>
    refine ⟨?_, rfl⟩
    rw [happen, onDb, killed_committed]
    split_ifs
    · exact hdb
    · exact hdb
  | start ts =>
    rw [happen, h.started]
    exact ⟨hdb, rfl⟩
  | startKilled ts n =>
    rw [happen, h.cutOff]
    exact ⟨hdb, rfl⟩

lemma crashes_from (h : Settled cfg s) {db : Db} (hdb : s.db.withoutBaselines = db.withoutBaselines)
    (xs : List Happening) :
    (∃ d, Runs.final (happen digest cfg) s xs = { s with db := d }) ∧
    (Runs.final (happen digest cfg) s xs).db.withoutBaselines =
      (Runs.final (observe digest cfg) db (xs.filterMap Happening.finished)).withoutBaselines ∧
    (Runs.final (happen digest cfg) s xs).db.baselines = (xs.filterMap (Happening.learned cfg)).foldl
      (fun b o => updateBaselines cfg o.ts o.vectors b) s.db.baselines ∧
    (Runs.outputs (happen digest cfg) s xs).reduceOption =
      Runs.outputs (observe digest cfg) db (xs.filterMap Happening.finished) := by
  induction xs generalizing s db with
  | nil => exact ⟨⟨s.db, rfl⟩, hdb, rfl, rfl⟩
  | cons x xs ih =>
    obtain ⟨d, hd⟩ := happen_store digest h x
    obtain ⟨hfinal, houtput⟩ := happen_whole digest h hdb x
    have hbaselines := baselines_happen digest h x
    have hnext : Settled cfg (happen digest cfg s x).1 := by
      rw [hd]
      exact h.withDb d
    obtain ⟨⟨d', hstore⟩, hmemory, hlearned, houtputs⟩ := ih hnext hfinal
    have hsplit : ∀ f : Happening → Option Observation,
        (x :: xs).filterMap f = (f x).toList ++ xs.filterMap f := by
      intro f
      rw [List.filterMap_cons]
      cases f x <;> rfl
    refine ⟨⟨d', ?_⟩, ?_, ?_, ?_⟩
    · rw [Runs.final, hstore, hd]
    · rw [hsplit, Runs.final_append]
      exact hmemory
    · rw [hsplit, List.foldl_append, ← hbaselines]
      exact hlearned
    · rw [hsplit, Runs.outputs_append, ← houtput, ← houtputs, Runs.outputs]
      cases (happen digest cfg s x).2 <;> rfl

/-- Whatever is killed and restarted, the memory is that of the finished passes, in their order, and the graphs rendered
are theirs. The baselines have learned the finished passes and those that were killed after their first commit. -/
theorem crashes_keep_whole_passes (cfg : MemoryConfig) (s : Store) (ts : ℚ) (xs : List Happening) :
    let s₀ := started cfg ts s
    let reached := Runs.final (happen digest cfg) s₀ xs
    let passes := xs.filterMap Happening.finished
    (∃ db, reached = { s₀ with db := db }) ∧
    reached.db.withoutBaselines = (Runs.final (observe digest cfg) s₀.db passes).withoutBaselines ∧
    reached.db.baselines = (xs.filterMap (Happening.learned cfg)).foldl
      (fun b o => updateBaselines cfg o.ts o.vectors b) s₀.db.baselines ∧
    (Runs.outputs (happen digest cfg) s₀ xs).reduceOption = Runs.outputs (observe digest cfg) s₀.db passes :=
  crashes_from digest (started_settled ts s) rfl xs

end Whole

end CausalEngine.Memory
