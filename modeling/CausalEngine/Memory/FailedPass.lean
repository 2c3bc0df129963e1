import CausalEngine.Memory.PassWrites

/-! A pass that raises. What it has written by then stays in the open transaction, and the next pass commits it
with its baselines. -/

namespace CausalEngine.Memory

open Foundations Correlation

variable (digest : CaseKey → String) (cfg : MemoryConfig)

/-- A pass, and the number of statements and commits after which it raises, if it does. -/
structure Pass where
  obs : Observation
  stop : Option ℕ

def runPassOn (c : Connection Db) (p : Pass) : Connection Db :=
  let ops := operations digest cfg p.obs c.current
  c.carryOut (p.stop.elim ops ops.take)

def baselinesOnly (c : Connection Db) (o : Observation) : Connection Db :=
  c.carryOut (Connection.transaction (baselineWrites cfg o))

/-- The pass raises after its baselines and `n` further statements. An edge without `r` or `lag_s` raises before the
statement that confirms it. -/
def failed (c : Connection Db) (o : Observation) (n : ℕ) : Connection Db :=
  runPassOn digest cfg c ⟨o, some ((Connection.transaction (baselineWrites cfg o)).length + n)⟩

def Db.memory (db : Db) : EdgeTable × CaseTable × List CaseObservation × List (ℚ × PassGraph String) :=
  (db.edgeMemory, db.cases, db.caseObservations, db.graphSnapshots)

def memoryAfter (c : Connection Db) (between : List Pass) (later : Observation) :=
  (runPassOn digest cfg (between.foldl (runPassOn digest cfg) c) ⟨later, none⟩).committed.memory

/-- Later passes leave the tables as if the failed pass had only learned its baselines. -/
def NoTrace (c : Connection Db) (o : Observation) (n : ℕ) : Prop := ∀ (between : List Pass) (later : Observation),
  memoryAfter digest cfg (failed digest cfg c o n) between later =
    memoryAfter digest cfg (baselinesOnly cfg c o) between later

structure AtRest (ts : ℚ) (row : EdgeRow) : Prop where
  stamped : row.updatedTs = ts
  confidence : max row.baseConf (row.confidence * (1 - cfg.decay)) = row.confidence
  shown : row.visible = true → cfg.hideAt ≤ row.confidence
  state : row.state = if row.confidence ≤ row.baseConf + 1 / 10 ^ 9 ∧ 0 < row.baseConf then .steady
    else if row.visible = true then .decaying else .hidden

/-- The pass raises before it confirms an edge, and up to then it seeds pairs that have their floor already and
decays rows at rest. -/
structure Harmless (m : EdgeTable) (o : Observation) (n : ℕ) : Prop where
  seeded : ∀ key ∈ (seedKeys cfg o).take n, ∃ row, m.get? key = some row ∧ cfg.prior ≤ row.baseConf
  decayed : n ≤ (seedKeys cfg o).length ∨ o.graph.edges = [] ∧
    ∀ key ∈ (decayKeys cfg o m).take (n - (seedKeys cfg o).length), ∀ row, m.get? key = some row → AtRest cfg o.ts row

section Rows

variable {cfg} {ts : ℚ}

lemma decayRow_eq_self {row : EdgeRow} : decayRow cfg ts row = row ↔ AtRest cfg ts row := by
  obtain ⟨conf, r, lagS, evidence, hits, visible, state, firstSeen, lastSeen, updated, base⟩ := row
  simp only [decayRow, EdgeRow.mk.injEq, true_and, and_true]
  constructor
  · rintro ⟨hconf, hvisible, hstate, hts⟩
    rw [hconf] at hvisible hstate
    refine ⟨hts.symm, hconf, ?_, ?_⟩
    · rintro rfl
      simpa using hvisible
    · rw [hvisible] at hstate
      exact hstate.symm
  · rintro ⟨hts, hconf, hshown, hstate⟩
    dsimp only at hts hconf hshown hstate
    have hvisible : (visible && decide (cfg.hideAt ≤ conf)) = visible := by
      cases visible with
      | false => rfl
      | true => simpa using hshown rfl
    rw [hconf, hvisible]
    exact ⟨rfl, rfl, hstate.symm, hts.symm⟩

lemma seedRow_floor (row : Option EdgeRow) : cfg.prior ≤ (seedRow cfg ts row).baseConf := by
  cases row with
  | none => exact le_rfl
  | some r => exact le_max_right _ _

lemma seedRow_eq_self {row : Option EdgeRow} (h : some (seedRow cfg ts row) = row) :
    ∃ r, row = some r ∧ cfg.prior ≤ r.baseConf := by
  cases row with
  | none => simp at h
  | some r =>
    have hrow := Option.some.inj h
    refine ⟨r, rfl, ?_⟩
    rw [← hrow]
    exact seedRow_floor _

lemma seedKeys_idle {m : EdgeTable} {keys : List EdgeKey}
    (h : ∀ key ∈ keys, ∃ row, m.get? key = some row ∧ cfg.prior ≤ row.baseConf) :
    keys.foldl (seedKey cfg ts) m = m := by
  induction keys with
  | nil => rfl
  | cons key keys ih =>
    obtain ⟨row, hrow, hbase⟩ := h key List.mem_cons_self
    have hkeep : seedKey cfg ts m key = m := by
      rw [seedKey, hrow]
      exact if_neg (not_lt.mpr hbase)
    rw [List.foldl_cons, hkeep]
    exact ih fun k hk => h k (List.mem_cons_of_mem _ hk)

lemma decayKeys_idle {m : EdgeTable} {keys : List EdgeKey} (hnd : keys.Nodup)
    (h : ∀ key ∈ keys, ∀ row, m.get? key = some row → AtRest cfg ts row) : keys.foldl (decayKey cfg ts) m = m := by
  rw [foldl_decayKey cfg ts hnd]
  apply OrderedMap.ext
  have hsame : ∀ e ∈ m.entries, (e.1, if e.1 ∈ keys then decayRow cfg ts e.2 else e.2) = e := by
    rintro ⟨k, row⟩ he
    dsimp only
    split_ifs with hk
    · rw [decayRow_eq_self.mpr (h k hk row ((m.get?_eq_some k row).mpr he))]
    · rfl
  exact (List.map_congr_left hsame).trans (List.map_id _)

lemma get?_decayKeys {m : EdgeTable} {keys : List EdgeKey} (hnd : keys.Nodup) (key : EdgeKey) :
    (keys.foldl (decayKey cfg ts) m).get? key =
      (m.get? key).map fun row => if key ∈ keys then decayRow cfg ts row else row := by
  rw [foldl_decayKey cfg ts hnd, OrderedMap.get?_mapVals]

end Rows

section Hits

variable {cfg} {ts : ℚ}

def hitsOf (m : EdgeTable) (key : EdgeKey) : ℕ := (m.get? key).elim 0 EdgeRow.hits

lemma hits_apply (w : Write) (db : Db) (key : EdgeKey) :
    hitsOf db.edgeMemory key ≤ hitsOf (w.apply digest cfg ts db).edgeMemory key := by
  cases w with
  | seed k =>
    rw [hitsOf, hitsOf, Write.apply, get?_seedKey]
    split_ifs with hk
    · subst hk
      cases db.edgeMemory.get? key with
      | none => exact Nat.zero_le _
      | some row => exact le_rfl
    · exact le_rfl
  | confirm e =>
    rw [hitsOf, hitsOf, Write.apply, get?_confirmEdge]
    split_ifs with hk
    · cases db.edgeMemory.get? key with
      | none => exact Nat.zero_le _
      | some row => exact Nat.le_succ _
    · exact le_rfl
  | decay k =>
    rw [hitsOf, hitsOf, Write.apply, decayKey, OrderedMap.get?_mapVals]
    cases db.edgeMemory.get? key with
    | none => exact le_rfl
    | some row =>
      dsimp only [Option.map, Option.elim]
      split_ifs <;> exact le_rfl
  | fileCase _ => exact le_rfl
  | observation _ => exact le_rfl
  | snapshot _ => exact le_rfl

lemma hits_written (o : Observation) (ws : List Write) (db : Db) (key : EdgeKey) : hitsOf db.edgeMemory key ≤
    hitsOf (Connection.written db (statements digest cfg o ws)).edgeMemory key := by
  induction ws generalizing db with
  | nil => exact le_rfl
  | cons w ws ih => exact (hits_apply digest w db key).trans (ih _)

lemma hits_confirm (e : Edge String) (m : EdgeTable) :
    hitsOf m (edgeKeyOf cfg e) < hitsOf (confirmEdge cfg ts m e) (edgeKeyOf cfg e) := by
  rw [hitsOf, hitsOf, get?_confirmEdge, if_pos rfl]
  cases m.get? (edgeKeyOf cfg e) with
  | none => exact Nat.zero_lt_one
  | some row => exact Nat.lt_succ_self _

variable (cfg) in
lemma hits_confirmed (o : Observation) (ws ws' : List Write) (e : Edge String) (db : Db) :
    hitsOf db.edgeMemory (edgeKeyOf cfg e) < hitsOf (Connection.written db
      (statements digest cfg o (ws ++ .confirm e :: ws'))).edgeMemory (edgeKeyOf cfg e) := by
  rw [statements_append, Connection.written_append]
  set before := Connection.written db (statements digest cfg o ws)
  calc
    hitsOf db.edgeMemory (edgeKeyOf cfg e) ≤ hitsOf before.edgeMemory (edgeKeyOf cfg e) :=
      hits_written digest o ws db _
    _ < hitsOf (confirmEdge cfg o.ts before.edgeMemory e) (edgeKeyOf cfg e) := hits_confirm e _
    _ ≤ hitsOf (Connection.written before (statements digest cfg o (.confirm e :: ws'))).edgeMemory
        (edgeKeyOf cfg e) :=
      hits_written digest o ws' ((Write.confirm e).apply digest cfg o.ts before) _

end Hits

section Prefix

variable {cfg} {o : Observation} {n : ℕ} {m : EdgeTable} {cases : CaseTable}

lemma take_seeds (hn : n ≤ (seedKeys cfg o).length) :
    (passWrites digest cfg o m cases).take n = ((seedKeys cfg o).take n).map .seed := by
  rw [passWrites, learnWrites, List.append_assoc, List.append_assoc,
    List.take_append_of_le_length (by rwa [List.length_map]), List.map_take]

lemma take_confirm (hn : (seedKeys cfg o).length < n) {e : Edge String} {es : List (Edge String)}
    (he : o.graph.edges = e :: es) :
    ∃ ws, (passWrites digest cfg o m cases).take n = (seedKeys cfg o).map .seed ++ .confirm e :: ws := by
  obtain ⟨k, rfl⟩ := Nat.exists_eq_add_of_lt hn
  rw [passWrites, learnWrites, he, List.append_assoc, List.append_assoc, List.take_append, List.length_map,
    List.take_of_length_le (by rw [List.length_map]; omega), List.map_cons, List.cons_append]
  have hk : (seedKeys cfg o).length + k + 1 - (seedKeys cfg o).length = k + 1 := by omega
  rw [hk, List.take_succ_cons]
  exact ⟨_, rfl⟩

lemma archiveWrites_idle (he : o.graph.edges = []) : archiveWrites digest cfg o cases = [] := by
  have hinc : incident cfg o.graph = none := by
    rw [incident, he]
    cases o.graph.rootCauseRanking.head? with
    | none => rfl
    | some top => exact if_pos (Or.inl rfl)
  rw [archiveWrites, hinc, if_pos he]
  rfl

lemma take_decays (hn : (seedKeys cfg o).length < n) (he : o.graph.edges = []) :
    (passWrites digest cfg o m cases).take n = (seedKeys cfg o).map .seed ++
      ((decayKeys cfg o (learnedEdges cfg o m)).take (n - (seedKeys cfg o).length)).map .decay := by
  rw [passWrites, learnWrites, archiveWrites_idle digest he, he, List.map_nil, List.append_nil, List.append_nil,
    List.take_append, List.length_map, List.take_of_length_le (by rw [List.length_map]; omega), List.map_take]

end Prefix

section Kept

variable {cfg} {o : Observation} {n : ℕ} {db : Db}

def writtenBy (digest : CaseKey → String) (cfg : MemoryConfig) (db : Db) (o : Observation) (n : ℕ) : Db :=
  Connection.written db (statements digest cfg o ((passWrites digest cfg o db.edgeMemory db.cases).take n))

lemma learnedEdges_idle (he : o.graph.edges = []) (m : EdgeTable) :
    learnedEdges cfg o m = (seedKeys cfg o).foldl (seedKey cfg o.ts) m := by
  rw [learnedEdges, he, List.foldl_nil]

lemma writtenBy_of_harmless (h : Harmless cfg db.edgeMemory o n) : writtenBy digest cfg db o n = db := by
  rw [writtenBy]
  rcases le_or_gt n (seedKeys cfg o).length with hn | hn
  · rw [take_seeds digest hn, written_seeds, seedKeys_idle h.seeded]
  · obtain ⟨he, hrest⟩ := h.decayed.resolve_left (not_le.mpr hn)
    have hseeded := h.seeded
    rw [List.take_of_length_le hn.le] at hseeded
    have hnd := (decayKeys_nodup cfg (o := o) db.edgeMemory).sublist (List.take_sublist (n - (seedKeys cfg o).length) _)
    rw [take_decays digest hn he, learnedEdges_idle he, seedKeys_idle hseeded, statements_append,
      Connection.written_append, written_seeds, seedKeys_idle hseeded, written_decays, decayKeys_idle hnd hrest]

lemma harmless_of_writtenBy (h : (writtenBy digest cfg db o n).edgeMemory = db.edgeMemory) :
    Harmless cfg db.edgeMemory o n := by
  rw [writtenBy] at h
  rcases le_or_gt n (seedKeys cfg o).length with hn | hn
  · rw [take_seeds digest hn, written_seeds] at h
    refine ⟨?_, Or.inl hn⟩
    intro key hkey
    have hrow := congrArg (fun m => m.get? key) h
    dsimp only at hrow
    rw [get?_seedKeys, if_pos hkey] at hrow
    exact seedRow_eq_self hrow
  · cases he : o.graph.edges with
    | cons e es =>
      obtain ⟨ws, hws⟩ := take_confirm digest (m := db.edgeMemory) hn he
      rw [hws] at h
      have hcount := hits_confirmed digest cfg o ((seedKeys cfg o).map .seed) ws e db
      rw [h] at hcount
      exact absurd hcount (lt_irrefl _)
    | nil =>
      rw [take_decays digest hn he, learnedEdges_idle he, statements_append, Connection.written_append, written_seeds,
        written_decays] at h
      dsimp only at h
      set seeded := (seedKeys cfg o).foldl (seedKey cfg o.ts) db.edgeMemory with hseeded
      have hnd := (decayKeys_nodup cfg (o := o) seeded).sublist (List.take_sublist (n - (seedKeys cfg o).length) _)
      -- decaying keeps the floor, so each seeded pair had it before
      have hfloor : ∀ key ∈ seedKeys cfg o, ∃ row, db.edgeMemory.get? key = some row ∧ cfg.prior ≤ row.baseConf := by
        intro key hkey
        have hrow := congrArg (fun m => m.get? key) h
        rw [get?_decayKeys hnd, hseeded, get?_seedKeys, if_pos hkey, Option.map_some] at hrow
        refine ⟨_, hrow.symm, ?_⟩
        split_ifs
        · exact seedRow_floor _
        · exact seedRow_floor _
      have hkeep : seeded = db.edgeMemory := seedKeys_idle hfloor
      rw [hkeep] at h hnd
      refine ⟨fun key hkey => hfloor key (List.mem_of_mem_take hkey), Or.inr ⟨he, ?_⟩⟩
      intro key hkey row hrow
      have hend := congrArg (fun m => m.get? key) h
      rw [get?_decayKeys hnd, hrow, Option.map_some, if_pos hkey] at hend
      exact decayRow_eq_self.mp (Option.some.inj hend)

end Kept

section Connected

variable {cfg} {c : Connection Db} {o : Observation} {n : ℕ}

lemma baselinesOnly_committed : (baselinesOnly cfg c o).committed = (baselinesOnly cfg c o).current := by
  rw [baselinesOnly, Connection.carryOut_transaction]

lemma baselinesOnly_current : (baselinesOnly cfg c o).current =
    { c.current with baselines := updateBaselines cfg o.ts o.vectors c.current.baselines } := by
  rw [baselinesOnly, Connection.carryOut_transaction, baselineWrites_written]

lemma failed_eq : failed digest cfg c o n = (baselinesOnly cfg c o).carryOut ((Connection.transaction
    (statements digest cfg o (passWrites digest cfg o (baselinesOnly cfg c o).current.edgeMemory
      (baselinesOnly cfg c o).current.cases))).take n) := by
  rw [failed, runPassOn, Option.elim_some, operations, List.take_length_add_append, Connection.carryOut_append,
    baselinesOnly_current]
  rfl

lemma failed_current :
    (failed digest cfg c o n).current = writtenBy digest cfg (baselinesOnly cfg c o).current o n := by
  rw [failed_eq, Connection.current_interrupted, writtenBy, statements, ← List.map_take]
  rfl

lemma failed_of_harmless (h : Harmless cfg c.current.edgeMemory o n) :
    failed digest cfg c o n = baselinesOnly cfg c o := by
  have hkept : writtenBy digest cfg (baselinesOnly cfg c o).current o n = (baselinesOnly cfg c o).current := by
    apply writtenBy_of_harmless
    rwa [baselinesOnly_current]
  rw [writtenBy, statements, List.map_take] at hkept
  rw [failed_eq]
  exact Connection.interrupted_eq_self baselinesOnly_committed hkept

def idle : Observation := ⟨⟨[], [], [], [], ⟨0, 0, 0⟩⟩, .empty, none, 0, 0⟩

lemma runPassOn_complete : runPassOn digest cfg c ⟨o, none⟩ =
    ⟨(observe digest cfg c.current o).1, (observe digest cfg c.current o).1⟩ := operations_complete digest cfg c

lemma edgeMemory_idle (db : Db) : (observe digest cfg db idle).1.edgeMemory = db.edgeMemory := by
  rw [edgeMemory_observe, updateEdges_eq, learnedEdges_idle rfl]
  have hnone : ∀ key, ¬ decays cfg idle.present (idle.graph.edges.map (edgeKeyOf cfg)) key := by
    rintro key ⟨-, -, hsrc, -⟩
    exact absurd hsrc List.not_mem_nil
  apply OrderedMap.ext
  simp only [decayAbsentEdges, OrderedMap.mapVals, if_neg (hnone _), List.map_id']
  rfl

end Connected

/-- A failed pass leaves no trace exactly when it raises before its statements have changed a row. -/
theorem no_trace_iff (c : Connection Db) (o : Observation) (n : ℕ) :
    NoTrace digest cfg c o n ↔ Harmless cfg c.current.edgeMemory o n := by
  constructor
  · intro h
    have hidle := congrArg Prod.fst (h [] idle)
    rw [memoryAfter, memoryAfter, List.foldl_nil, List.foldl_nil, runPassOn_complete, runPassOn_complete] at hidle
    have hmemory : (writtenBy digest cfg (baselinesOnly cfg c o).current o n).edgeMemory =
        (baselinesOnly cfg c o).current.edgeMemory := by
      rwa [← failed_current, ← edgeMemory_idle digest (failed digest cfg c o n).current,
        ← edgeMemory_idle digest (baselinesOnly cfg c o).current]
    have hharmless := harmless_of_writtenBy digest hmemory
    rwa [baselinesOnly_current] at hharmless
  · intro h between later
    rw [failed_of_harmless digest h]

-- an accepted edge, then one without `r` and `lag_s`; what stands for those two is not read
def broken (r : Coef) (lagS : ℤ) : Observation where
  graph :=
    { findings := []
      edges := [⟨"cooling-monitor-5f-c3", "timescaledb-7c-z9", .tenths 9, 10, [.stat, .write]⟩,
        ⟨"log-archiver-5f-c3", "timescaledb-7c-z9", r, lagS, [.stat]⟩]
      rootCauseRanking := []
      blastRadius := []
      passMeta := ⟨3, 3, 2⟩ }
  vectors := .ofList [("cooling-monitor-5f-c3", []), ("log-archiver-5f-c3", []), ("timescaledb-7c-z9", [])]
  witness := none
  ts := 100
  now := 100

def calm : Observation := { broken .zero 0 with graph := ⟨[], [], [], [], ⟨3, 0, 0⟩⟩, ts := 110, now := 110 }

theorem failed_pass_kept : ¬ ∃ r lagS, NoTrace (fun _ => "") {} ⟨.empty, .empty⟩ (broken r lagS) 1 := by
  rintro ⟨r, lagS, h⟩
  have hkeys := congrArg (fun t => t.1.keys) (h [] calm)
  have hfailed : failed (fun _ => "") {} ⟨.empty, .empty⟩ (broken r lagS) 1 =
      failed (fun _ => "") {} ⟨.empty, .empty⟩ (broken .zero 0) 1 := rfl
  have hbaselines : baselinesOnly {} ⟨.empty, .empty⟩ (broken r lagS) =
      baselinesOnly {} ⟨.empty, .empty⟩ (broken .zero 0) := rfl
  rw [hfailed, hbaselines] at hkeys
  revert hkeys
  decide +kernel

end CausalEngine.Memory
