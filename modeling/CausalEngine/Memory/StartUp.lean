import CausalEngine.Foundations.Connection
import CausalEngine.Memory.Observe

/-! The start of a memory on a file that an earlier version may have left. A change of columns is in the file at once,
unless a transaction is open; other statements are there from the next commit on. -/

namespace CausalEngine.Memory

open Foundations

inductive Table
  | schemaMeta | edgeMemory | cases | caseObservations | graphSnapshots | modelVersions | mistakes | baselines
deriving DecidableEq

structure EdgeParams where
  signal : String
  alpha : ℚ
  decay : ℚ
  showAt : ℚ
  hideAt : ℚ
deriving DecidableEq

structure ModelVersion where
  ts : ℚ
  component : String
  version : String
  params : EdgeParams
  notes : String
deriving DecidableEq

/-- The file. A column that is not there has no meaning in the rows. -/
structure Store where
  tables : Finset Table
  schemaVersion : Option String
  floorColumn : Bool
  familyColumn : Bool
  modelVersions : List ModelVersion
  db : Db

def currentVersion : String := "l3-memory-v5"

def podKeyedVersion : String := "l3-memory-v1"

def schema : List Table :=
  [.schemaMeta, .edgeMemory, .cases, .caseObservations, .graphSnapshots, .modelVersions, .mistakes, .baselines]

namespace Store

def create (s : Store) (t : Table) : Store :=
  if t ∈ s.tables then s
  else
    let s := { s with tables := insert t s.tables }
    match t with
    | .schemaMeta => { s with schemaVersion := none }
    | .edgeMemory => { s with floorColumn := true, db := { s.db with edgeMemory := .empty } }
    | .cases => { s with familyColumn := true, db := { s.db with cases := .empty } }
    | .caseObservations => { s with db := { s.db with caseObservations := [] } }
    | .graphSnapshots => { s with db := { s.db with graphSnapshots := [] } }
    | .modelVersions => { s with modelVersions := [] }
    | .mistakes => { s with db := { s.db with openMistakes := 0 } }
    | .baselines => { s with db := { s.db with baselines := .empty } }

def created (s : Store) : Store := schema.foldl create s

def clearEdges (s : Store) : Store := { s with db := { s.db with edgeMemory := .empty } }

def addFloor (s : Store) : Store :=
  { s with
    floorColumn := true
    db := { s.db with edgeMemory := s.db.edgeMemory.mapVals fun _ row => { row with baseConf := 0 } } }

def addFamily (s : Store) : Store :=
  { s with
    familyColumn := true
    db := { s.db with cases := s.db.cases.mapVals fun _ row => { row with familyId := none } } }

def foundFamilies (s : Store) : Store :=
  { s with db := { s.db with
      cases := s.db.cases.mapVals fun id row => { row with familyId := row.familyId.or (some id) } } }

def stamp (s : Store) : Store := { s with schemaVersion := some currentVersion }

def recordModelVersion (v : ModelVersion) (s : Store) : Store :=
  if s.modelVersions.any fun w => w.component = v.component ∧ w.version = v.version ∧ w.params = v.params then s
  else { s with modelVersions := s.modelVersions ++ [v] }

end Store

def memoryVersion (cfg : MemoryConfig) (ts : ℚ) : ModelVersion where
  ts := ts
  component := "edge-memory"
  version := currentVersion
  params := ⟨cfg.signal, cfg.alpha, cfg.decay, cfg.showAt, cfg.hideAt⟩
  notes := "Persistent L3 memory: edge confidence, cases, model versions, mistakes."

section Operations

def alter (inTransaction : Bool) (f : Store → Store) : Connection Store → Connection Store :=
  if inTransaction then Connection.exec f else Connection.execCommitted f

def migration (s : Store) : List (Connection Store → Connection Store) :=
  if s.schemaVersion = some currentVersion then []
  else
    let deletes : Bool := s.schemaVersion = some podKeyedVersion
    (if deletes then [Connection.exec Store.clearEdges] else []) ++
      (if s.floorColumn then [] else [alter deletes Store.addFloor]) ++
      (if s.familyColumn then [] else [alter deletes Store.addFamily, Connection.exec Store.foundFamilies]) ++
      [Connection.exec Store.stamp]

variable (cfg : MemoryConfig) (ts : ℚ)

def startOperations (s : Store) : List (Connection Store → Connection Store) :=
  schema.map (fun t => Connection.execCommitted (Store.create · t)) ++ migration s.created ++ [Connection.commit] ++
    Connection.transaction [Store.recordModelVersion (memoryVersion cfg ts)]

def started (s : Store) : Store := (Connection.carryOut ⟨s, s⟩ (startOperations cfg ts s)).committed

def cutOff (n : ℕ) (s : Store) : Store := (Connection.carryOut ⟨s, s⟩ ((startOperations cfg ts s).take n)).committed

end Operations

section ReadFamilies

def readRow (id : String) (row : CaseRow) : CaseRow := { row with familyId := some (row.familyId.getD id) }

def Db.asRead (db : Db) : Db := { db with cases := db.cases.mapVals readRow }

def Store.asRead (s : Store) : Store := { s with modelVersions := [], db := s.db.asRead }

variable (t : CaseTable)

lemma nearestCase_read (key : CaseKey) : nearestCase (t.mapVals readRow) key =
    ((nearestCase t key).1.map fun e => (e.1, readRow e.1 e.2), (nearestCase t key).2) := by
  have hfold : ∀ (l : List (String × CaseRow)) best,
      (l.map fun e => (e.1, readRow e.1 e.2)).foldl (nearer key) (best.1.map fun e => (e.1, readRow e.1 e.2), best.2) =
        ((l.foldl (nearer key) best).1.map fun e => (e.1, readRow e.1 e.2), (l.foldl (nearer key) best).2) := by
    intro l
    induction l with
    | nil => exact fun _ => rfl
    | cons e l ih =>
      intro best
      have hstep : nearer key (best.1.map fun e => (e.1, readRow e.1 e.2), best.2) (e.1, readRow e.1 e.2) =
          ((nearer key best e).1.map fun e => (e.1, readRow e.1 e.2), (nearer key best e).2) := by
        rcases lt_or_ge best.2 (caseSim key e.2.key) with h | h
        · rw [nearer, nearer, if_pos h]
          exact if_pos h
        · rw [nearer, nearer, if_neg h.not_gt]
          exact if_neg h.not_gt
      rw [List.map_cons, List.foldl_cons, List.foldl_cons, hstep, ih]
  exact hfold t.entries (none, 0)

variable (digest : CaseKey → String) (cfg : MemoryConfig)

lemma fileIncident_read (ts : ℚ) (inc : Incident) : fileIncident digest cfg ts inc (t.mapVals readRow) =
    ((fileIncident digest cfg ts inc t).1.mapVals readRow, (fileIncident digest cfg ts inc t).2) := by
  simp only [fileIncident, nearestCase_read]
  obtain ⟨best, sim⟩ := nearestCase t inc.key
  cases best with
  | none =>
    dsimp only [Option.map]
    rw [OrderedMap.mapVals_insertNew]
    rfl
  | some e =>
    obtain ⟨id, row⟩ := e
    dsimp only [Option.map]
    split_ifs
    · rw [OrderedMap.mapVals_set]
      rfl
    · rw [OrderedMap.mapVals_insertNew]
      rfl
    · rw [OrderedMap.mapVals_insertNew]
      rfl

lemma stats_read (db : Db) : stats db.asRead = stats db := by
  simp only [stats, Db.asRead, OrderedMap.mapVals, List.map_map, List.length_map]
  rfl

lemma observe_read (db : Db) (o : Observation) :
    observe digest cfg db.asRead o = ((observe digest cfg db o).1.asRead, (observe digest cfg db o).2) := by
  have hremember : remember digest cfg db.asRead o =
      ((remember digest cfg db o).1.asRead, (remember digest cfg db o).2) := by
    simp only [remember, promoteCase, Db.asRead]
    cases incident cfg o.graph with
    | none =>
      dsimp only
      split_ifs <;> rfl
    | some inc =>
      dsimp only
      rw [fileIncident_read]
      split_ifs <;> rfl
  simp only [observe, hremember, render, stats_read]
  rfl

end ReadFamilies

section Create

variable {s : Store} {t : Table}

lemma create_eq_self (h : t ∈ s.tables) : s.create t = s := if_pos h

lemma tables_create (s : Store) (t : Table) : (s.create t).tables = insert t s.tables := by
  rw [Store.create]
  split_ifs with h
  · exact (Finset.insert_eq_of_mem h).symm
  · cases t <;> rfl

lemma tables_foldl_create (l : List Table) (s : Store) : (l.foldl Store.create s).tables = l.toFinset ∪ s.tables := by
  induction l generalizing s with
  | nil => simp
  | cons t l ih =>
    rw [List.foldl_cons, ih, tables_create, List.toFinset_cons, Finset.union_insert, Finset.insert_union]

lemma foldl_create_eq_self {l : List Table} (h : ∀ t ∈ l, t ∈ s.tables) : l.foldl Store.create s = s := by
  induction l with
  | nil => rfl
  | cons t l ih =>
    rw [List.foldl_cons, create_eq_self (h t List.mem_cons_self)]
    exact ih fun u hu => h u (List.mem_cons_of_mem _ hu)

lemma created_eq_self (h : ∀ t, t ∈ s.tables) : s.created = s := by
  rw [Store.created]
  exact foldl_create_eq_self fun t _ => h t

lemma mem_created (s : Store) (t : Table) : t ∈ s.created.tables := by
  rw [Store.created, tables_foldl_create, Finset.mem_union, List.mem_toFinset]
  refine Or.inl ?_
  cases t <;> simp [schema]

lemma created_take (s : Store) (n : ℕ) : Store.created ((schema.take n).foldl Store.create s) = s.created := by
  have hkeep : (schema.take n).foldl Store.create ((schema.take n).foldl Store.create s) =
      (schema.take n).foldl Store.create s := by
    apply foldl_create_eq_self
    intro t ht
    rw [tables_foldl_create, Finset.mem_union, List.mem_toFinset]
    exact Or.inl ht
  rw [Store.created, Store.created, ← List.take_append_drop n schema, List.foldl_append, List.foldl_append]
  simp only [List.take_append_drop, hkeep]

lemma created_eq (s : Store) : s.created = schema.foldl Store.create s := rfl

attribute [irreducible] Store.created

lemma created_idem (s : Store) : s.created.created = s.created := created_eq_self (s := s.created) (mem_created s)

end Create

section Migrate

namespace Store

variable (s : Store)

def unkeyed : Store := if s.schemaVersion = some podKeyedVersion then s.clearEdges else s

def withFloor : Store := if s.floorColumn then s else s.addFloor

def withFamilies : Store := if s.familyColumn then s else s.addFamily.foundFamilies

def migrated : Store := if s.schemaVersion = some currentVersion then s else s.unkeyed.withFloor.withFamilies.stamp

def seen : Store := s.created.migrated.asRead

end Store

variable {s : Store}

lemma migrated_version (s : Store) : s.migrated.schemaVersion = some currentVersion := by
  rw [Store.migrated]
  split_ifs with h
  · exact h
  · rfl

lemma migrated_eq_self (h : s.schemaVersion = some currentVersion) : s.migrated = s := if_pos h

lemma migrated_tables (s : Store) : s.migrated.tables = s.tables := by
  rw [Store.migrated]
  split_ifs
  · rfl
  · rw [Store.stamp, Store.withFamilies, Store.withFloor, Store.unkeyed]
    split_ifs <;> rfl

def missingColumns (s : Store) : List (Store → Store) :=
  (if s.floorColumn then [] else [Store.addFloor]) ++ if s.familyColumn then [] else [Store.addFamily]

lemma migration_podKeyed (hpod : s.schemaVersion = some podKeyedVersion) : ∃ writes : List (Store → Store),
    migration s = writes.map Connection.exec ∧ Connection.written s writes = s.migrated := by
  obtain ⟨tables, version, floor, family, versions, db⟩ := s
  obtain rfl : version = some podKeyedVersion := hpod
  refine ⟨[Store.clearEdges] ++ (if floor then [] else [Store.addFloor]) ++
    (if family then [] else [Store.addFamily, Store.foundFamilies]) ++ [Store.stamp], ?_, ?_⟩
  · cases floor <;> cases family <;> rfl
  · cases floor <;> cases family <;> rfl

lemma migration_keyed (hpod : s.schemaVersion ≠ some podKeyedVersion) (hold : s.schemaVersion ≠ some currentVersion) :
    ∃ writes : List (Store → Store), migration s = (missingColumns s).map Connection.execCommitted ++
      writes.map Connection.exec ∧ Connection.written s (missingColumns s ++ writes) = s.migrated := by
  obtain ⟨tables, version, floor, family, versions, db⟩ := s
  simp only [migration, Store.migrated, Store.unkeyed, if_neg hold, if_neg hpod, decide_eq_false hpod]
  refine ⟨(if family then [] else [Store.foundFamilies]) ++ [Store.stamp], ?_, ?_⟩
  · cases floor <;> cases family <;> rfl
  · cases floor <;> cases family <;> rfl

lemma migration_current (s : Store) : (Connection.carryOut ⟨s, s⟩ (migration s)).current = s.migrated := by
  by_cases hold : s.schemaVersion = some currentVersion
  · rw [migration, if_pos hold, migrated_eq_self hold]
    rfl
  by_cases hpod : s.schemaVersion = some podKeyedVersion
  · obtain ⟨writes, hwrites, hmigrated⟩ := migration_podKeyed hpod
    rw [hwrites, Connection.carryOut_exec, hmigrated]
  · obtain ⟨writes, hwrites, hmigrated⟩ := migration_keyed hpod hold
    rw [hwrites, Connection.carryOut_append, Connection.carryOut_execCommitted, Connection.carryOut_exec,
      ← Connection.written_append, hmigrated]

lemma seen_created (s : Store) : s.created.seen = s.seen := by rw [Store.seen, created_idem, Store.seen]

lemma seen_of_full (hfull : ∀ t, t ∈ s.tables) : s.seen = s.migrated.asRead := by
  rw [Store.seen, created_eq_self hfull]

lemma migrated_addFloor (hpod : s.schemaVersion ≠ some podKeyedVersion) (hold : s.schemaVersion ≠ some currentVersion)
    (hfloor : s.floorColumn = false) : s.addFloor.migrated = s.migrated := by
  have hnone : s.addFloor.schemaVersion = s.schemaVersion := rfl
  have hleft : s.addFloor.withFloor = s.addFloor := rfl
  have hright : s.withFloor = s.addFloor := if_neg (by rw [hfloor]; exact Bool.false_ne_true)
  rw [Store.migrated, Store.migrated, Store.unkeyed, Store.unkeyed, hnone, if_neg hold, if_neg hold, if_neg hpod,
    if_neg hpod, hleft, hright]

lemma readRow_founded (id : String) (row : CaseRow) :
    readRow id { row with familyId := (none : Option String).or (some id) } =
      readRow id { row with familyId := none } := rfl

lemma migrated_addFamily (hpod : s.schemaVersion ≠ some podKeyedVersion) (hold : s.schemaVersion ≠ some currentVersion)
    (hfamily : s.familyColumn = false) : s.addFamily.migrated.asRead = s.migrated.asRead := by
  have hnone : s.addFamily.schemaVersion = s.schemaVersion := rfl
  have hfloored : s.withFloor.familyColumn = false := by
    rw [Store.withFloor]
    split_ifs
    · exact hfamily
    · exact hfamily
  have hcomm : s.addFamily.withFloor = s.withFloor.addFamily := by
    have hsame : s.addFamily.floorColumn = s.floorColumn := rfl
    rw [Store.withFloor, Store.withFloor, hsame]
    split_ifs <;> rfl
  have hleft : s.withFloor.addFamily.withFamilies = s.withFloor.addFamily := rfl
  have hright : s.withFloor.withFamilies = s.withFloor.addFamily.foundFamilies :=
    if_neg (by rw [hfloored]; exact Bool.false_ne_true)
  have hread : ∀ u : Store, u.addFamily.stamp.asRead = u.addFamily.foundFamilies.stamp.asRead := by
    intro u
    simp only [Store.asRead, Db.asRead, Store.stamp, Store.addFamily, Store.foundFamilies, OrderedMap.mapVals_mapVals,
      readRow_founded]
  rw [Store.migrated, Store.migrated, Store.unkeyed, Store.unkeyed, hnone, if_neg hold, if_neg hold, if_neg hpod,
    if_neg hpod, hcomm, hleft, hright]
  exact hread _

lemma migrated_columns (hpod : s.schemaVersion ≠ some podKeyedVersion) (hold : s.schemaVersion ≠ some currentVersion)
    (n : ℕ) : (Connection.written s ((missingColumns s).take n)).migrated.asRead = s.migrated.asRead := by
  rw [missingColumns]
  cases hfloor : s.floorColumn <;> cases hfamily : s.familyColumn
  · rcases n with _ | _ | n
    · rfl
    · exact congrArg Store.asRead (migrated_addFloor hpod hold hfloor)
    · have hfirst := congrArg Store.asRead (migrated_addFloor hpod hold hfloor)
      have hsecond := migrated_addFamily (s := s.addFloor) hpod hold hfamily
      cases n <;> exact hsecond.trans hfirst
  · rcases n with _ | n
    · rfl
    · cases n <;> exact congrArg Store.asRead (migrated_addFloor hpod hold hfloor)
  · rcases n with _ | n
    · rfl
    · cases n <;> exact migrated_addFamily hpod hold hfamily
  · cases n <;> rfl

lemma columns_tables (s : Store) (n : ℕ) : (Connection.written s ((missingColumns s).take n)).tables = s.tables := by
  rw [missingColumns]
  cases s.floorColumn <;> cases s.familyColumn <;> rcases n with _ | _ | _ | n <;> rfl

lemma seen_migration (hfull : ∀ t, t ∈ s.tables) (n : ℕ) :
    (Connection.carryOut ⟨s, s⟩ ((migration s).take n)).committed.seen = s.seen := by
  by_cases hold : s.schemaVersion = some currentVersion
  · rw [migration, if_pos hold, List.take_nil]
    rfl
  by_cases hpod : s.schemaVersion = some podKeyedVersion
  · obtain ⟨writes, hwrites, -⟩ := migration_podKeyed hpod
    rw [hwrites, Connection.committed_interrupted_exec]
  · obtain ⟨writes, hwrites, -⟩ := migration_keyed hpod hold
    have hcolumns : ∀ n, (Connection.written s ((missingColumns s).take n)).seen = s.seen := by
      intro n
      rw [seen_of_full hfull, ← migrated_columns hpod hold n, seen_of_full]
      rwa [columns_tables]
    have hall := hcolumns (missingColumns s).length
    rw [List.take_length] at hall
    rw [hwrites]
    apply Connection.interrupted_append (P := fun c : Connection Store => c.committed.seen = s.seen)
    · intro n
      rw [← List.map_take, Connection.carryOut_execCommitted]
      exact hcolumns n
    · intro n
      rw [Connection.carryOut_execCommitted, Connection.committed_interrupted_exec]
      exact hall

end Migrate

section Start

variable (cfg : MemoryConfig) (ts : ℚ) (s : Store)

lemma settled_tables (t : Table) : t ∈ s.created.migrated.tables := by
  rw [migrated_tables]
  exact mem_created s t

lemma seen_settled : s.created.migrated.seen = s.seen := by
  rw [seen_of_full (settled_tables s), migrated_eq_self (migrated_version _), Store.seen]

lemma creates_eq (l : List Table) : (l.map fun t => Connection.execCommitted (Store.create · t)) =
    (l.map fun t s => Store.create s t).map Connection.execCommitted := by
  rw [List.map_map]
  rfl

lemma carryOut_creates (l : List Table) : Connection.carryOut ⟨s, s⟩
      (l.map fun t => Connection.execCommitted (Store.create · t)) =
    ⟨l.foldl Store.create s, l.foldl Store.create s⟩ := by
  have hfold : Connection.written s (l.map fun t s => Store.create s t) = l.foldl Store.create s := List.foldl_map
  rw [creates_eq, Connection.carryOut_execCommitted, hfold]

lemma carryOut_schema : Connection.carryOut ⟨s, s⟩ (schema.map fun t => Connection.execCommitted (Store.create · t)) =
    ⟨s.created, s.created⟩ := by
  rw [carryOut_creates, created_eq]

lemma carryOut_settled : (Connection.carryOut ⟨s, s⟩
    (schema.map (fun t => Connection.execCommitted (Store.create · t)) ++ migration s.created ++
      [Connection.commit])) = ⟨s.created.migrated, s.created.migrated⟩ := by
  rw [Connection.carryOut_append, Connection.carryOut_append, carryOut_schema, ← migration_current s.created]
  rfl

lemma started_eq : started cfg ts s = s.created.migrated.recordModelVersion (memoryVersion cfg ts) := by
  rw [started, startOperations, Connection.carryOut_append, carryOut_settled, Connection.carryOut_transaction]
  rfl

lemma recorded_asRead (v : ModelVersion) : (s.recordModelVersion v).asRead = s.asRead := by
  rw [Store.recordModelVersion]
  split_ifs <;> rfl

lemma recorded_full (v : ModelVersion) (hfull : ∀ t, t ∈ s.tables) (t : Table) :
    t ∈ (s.recordModelVersion v).tables := by
  rw [Store.recordModelVersion]
  split_ifs
  · exact hfull t
  · exact hfull t

lemma recorded_version (v : ModelVersion) : (s.recordModelVersion v).schemaVersion = s.schemaVersion := by
  rw [Store.recordModelVersion]
  split_ifs <;> rfl

lemma started_full (t : Table) : t ∈ (started cfg ts s).tables := by
  rw [started_eq]
  exact recorded_full _ _ (settled_tables s) t

lemma started_version : (started cfg ts s).schemaVersion = some currentVersion := by
  rw [started_eq, recorded_version, migrated_version]

lemma started_asRead : (started cfg ts s).asRead = s.seen := by rw [started_eq, recorded_asRead, Store.seen]

lemma started_seen : (started cfg ts s).seen = s.seen := by
  rw [seen_of_full (started_full cfg ts s), migrated_eq_self (started_version cfg ts s), started_asRead]

lemma seen_creates (n : ℕ) : ((schema.take n).foldl Store.create s).seen = s.seen := by
  rw [Store.seen, created_take, Store.seen]

/-- Wherever a start is cut off, a complete one makes the same of what is left. -/
lemma seen_cutOff (n : ℕ) : (cutOff cfg ts n s).seen = s.seen := by
  refine Connection.interrupted_append (P := fun c : Connection Store => c.committed.seen = s.seen) ?_ ?_ n
  · refine Connection.interrupted_append (P := fun c : Connection Store => c.committed.seen = s.seen) ?_ ?_
    · refine Connection.interrupted_append (P := fun c : Connection Store => c.committed.seen = s.seen) ?_ ?_
      · intro n
        rw [← List.map_take, carryOut_creates, seen_creates]
      · intro n
        rw [carryOut_schema, seen_migration (mem_created s), seen_created]
    · intro n
      cases n with
      | zero =>
        have hall := seen_migration (mem_created s) (migration s.created).length
        rw [List.take_length, seen_created] at hall
        rwa [List.take_zero, Connection.carryOut_append, carryOut_schema]
      | succ n =>
        rw [List.take_of_length_le (by simp), ← Connection.carryOut_append, carryOut_settled, seen_settled]
  · intro n
    rw [carryOut_settled]
    refine Connection.interrupted_append (P := fun c : Connection Store => c.committed.seen = s.seen) ?_ ?_ n
    · intro n
      rw [Connection.committed_interrupted_exec, seen_settled]
    · intro n
      cases n with
      | zero => exact seen_settled s
      | succ n =>
        have hlast := started_seen cfg ts s
        rw [started_eq] at hlast
        rw [List.take_of_length_le (by simp)]
        exact hlast

end Start

section Passes

variable (digest : CaseKey → String) (cfg : MemoryConfig)

lemma outputs_read (db : Db) (os : List Observation) :
    Runs.outputs (observe digest cfg) db.asRead os = Runs.outputs (observe digest cfg) db os ∧
      Runs.final (observe digest cfg) db.asRead os = (Runs.final (observe digest cfg) db os).asRead := by
  have hstep : ∀ d d' o o', d = Db.asRead d' → o = o' →
      (observe digest cfg d o).1 = (observe digest cfg d' o').1.asRead ∧
      id (observe digest cfg d o).2 = id (observe digest cfg d' o').2 := by
    rintro d d' o o' rfl rfl
    rw [observe_read]
    exact ⟨rfl, rfl⟩
  have hsame : List.Forall₂ Eq os os := List.forall₂_same.mpr fun o _ => rfl
  obtain ⟨hfinal, houtputs⟩ := Runs.run_related (observe digest cfg) (R := fun d d' => d = Db.asRead d') id hstep
    (s := db.asRead) (t := db) rfl hsame
  rw [List.map_id, List.map_id] at houtputs
  exact ⟨houtputs, hfinal⟩

structure Attempt where
  cfg : MemoryConfig
  ts : ℚ
  stop : ℕ

/-- A file of any earlier version, on which any number of starts were cut off anywhere, is for all later passes what
one undisturbed start makes of it. -/
theorem interrupted_upgrade_invisible (s : Store) (attempts : List Attempt) (ts ts' : ℚ) (os : List Observation) :
    let s₁ := started cfg ts (attempts.foldl (fun s a => cutOff a.cfg a.ts a.stop s) s)
    let s₂ := started cfg ts' s
    s₁.asRead = s₂.asRead ∧ bootstrapGraph cfg s₁.db = bootstrapGraph cfg s₂.db ∧
      Runs.outputs (observe digest cfg) s₁.db os = Runs.outputs (observe digest cfg) s₂.db os ∧
      (Runs.final (observe digest cfg) s₁.db os).asRead = (Runs.final (observe digest cfg) s₂.db os).asRead := by
  intro s₁ s₂
  have hattempts : (attempts.foldl (fun s a => cutOff a.cfg a.ts a.stop s) s).seen = s.seen := by
    induction attempts generalizing s with
    | nil => rfl
    | cons a attempts ih => exact (ih _).trans (seen_cutOff a.cfg a.ts s a.stop)
  have hread : s₁.asRead = s₂.asRead := by
    rw [started_asRead, started_asRead, hattempts]
  have hdb : s₁.db.asRead = s₂.db.asRead := congrArg Store.db hread
  refine ⟨hread, ?_, ?_, ?_⟩
  · have hboot : ∀ db : Db, bootstrapGraph cfg db = bootstrapGraph cfg db.asRead := by
      intro db
      simp only [bootstrapGraph, render, stats_read]
      rfl
    rw [hboot, hdb, ← hboot]
  · rw [← (outputs_read digest cfg s₁.db os).1, hdb, (outputs_read digest cfg s₂.db os).1]
  · rw [← (outputs_read digest cfg s₁.db os).2, hdb, (outputs_read digest cfg s₂.db os).2]

end Passes

end CausalEngine.Memory
