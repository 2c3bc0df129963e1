import CausalEngine.Foundations.Connection
import CausalEngine.Memory.Observe

/-! An observation as the database statements it carries out: the baselines with a commit of their own, then seeds,
confirmations, decays and the archive with another one. -/

namespace CausalEngine.Memory

open Foundations Correlation

inductive Write
  | seed (key : EdgeKey)
  | confirm (e : Edge String)
  | decay (key : EdgeKey)
  | fileCase (inc : Incident)
  | observation (row : CaseObservation)
  | snapshot (graph : PassGraph String)

variable (digest : CaseKey → String) (cfg : MemoryConfig)

def decayKey (ts : ℚ) (m : EdgeTable) (key : EdgeKey) : EdgeTable :=
  m.mapVals fun k row => if k = key then decayRow cfg ts row else row

def Write.apply (ts : ℚ) : Write → Db → Db
  | .seed key, db => { db with edgeMemory := seedKey cfg ts db.edgeMemory key }
  | .confirm e, db => { db with edgeMemory := confirmEdge cfg ts db.edgeMemory e }
  | .decay key, db => { db with edgeMemory := decayKey cfg ts db.edgeMemory key }
  | .fileCase inc, db => { db with cases := (fileIncident digest cfg ts inc db.cases).1 }
  | .observation row, db => { db with caseObservations := db.caseObservations ++ [row] }
  | .snapshot graph, db => { db with graphSnapshots := db.graphSnapshots ++ [(ts, graph)] }

section Statements

variable (o : Observation)

def seedKeys : List EdgeKey := o.witness.elim [] fun w => w.sharedRelation.filterMap (structuralKey cfg o.present)

def decayKeys (m : EdgeTable) : List EdgeKey := m.keys.filter (decays cfg o.present (o.graph.edges.map (edgeKeyOf cfg)))

def learnWrites : List Write := (seedKeys cfg o).map .seed ++ o.graph.edges.map .confirm

def learnedEdges (m : EdgeTable) : EdgeTable :=
  o.graph.edges.foldl (confirmEdge cfg o.ts) ((seedKeys cfg o).foldl (seedKey cfg o.ts) m)

def archiveWrites (cases : CaseTable) : List Write :=
  ((incident cfg o.graph).elim [] fun inc =>
    [.fileCase inc, .observation ⟨o.ts, (fileIncident digest cfg o.ts inc cases).2.caseId, inc.root, inc.key.victims,
      o.graph⟩]) ++
  if o.graph.edges = [] then [] else [.snapshot o.graph]

def passWrites (m : EdgeTable) (cases : CaseTable) : List Write :=
  learnWrites cfg o ++ (decayKeys cfg o (learnedEdges cfg o m)).map .decay ++ archiveWrites digest cfg o cases

def baselineWrites : List (Db → Db) :=
  o.vectors.entries.map fun e db => { db with baselines := learnBaseline cfg o.ts db.baselines e.1 e.2 }

def statements (ws : List Write) : List (Db → Db) := ws.map (Write.apply digest cfg o.ts)

def operations (db : Db) : List (Connection Db → Connection Db) :=
  Connection.transaction (baselineWrites cfg o) ++
    Connection.transaction (statements digest cfg o (passWrites digest cfg o db.edgeMemory db.cases))

end Statements

section Agreement

variable {o : Observation} (db : Db)

lemma baselineWrites_written : Connection.written db (baselineWrites cfg o) =
    { db with baselines := updateBaselines cfg o.ts o.vectors db.baselines } := by
  rw [baselineWrites, updateBaselines]
  induction o.vectors.entries generalizing db with
  | nil => rfl
  | cons e es ih => exact ih _

lemma statements_append (ws ws' : List Write) :
    statements digest cfg o (ws ++ ws') = statements digest cfg o ws ++ statements digest cfg o ws' := List.map_append

lemma written_edges {α : Type} {w : α → Write} {f : EdgeTable → α → EdgeTable}
    (hf : ∀ a db, (w a).apply digest cfg o.ts db = { db with edgeMemory := f db.edgeMemory a }) (l : List α) :
    Connection.written db (statements digest cfg o (l.map w)) = { db with edgeMemory := l.foldl f db.edgeMemory } := by
  induction l generalizing db with
  | nil => rfl
  | cons a l ih =>
    have hstep : Connection.written db (statements digest cfg o ((a :: l).map w)) =
        Connection.written ((w a).apply digest cfg o.ts db) (statements digest cfg o (l.map w)) := rfl
    rw [hstep, hf, ih]
    rfl

lemma written_seeds (keys : List EdgeKey) : Connection.written db (statements digest cfg o (keys.map .seed)) =
    { db with edgeMemory := keys.foldl (seedKey cfg o.ts) db.edgeMemory } :=
  written_edges digest cfg db (fun _ _ => rfl) keys

lemma written_confirms (edges : List (Edge String)) :
    Connection.written db (statements digest cfg o (edges.map .confirm)) =
      { db with edgeMemory := edges.foldl (confirmEdge cfg o.ts) db.edgeMemory } :=
  written_edges digest cfg db (fun _ _ => rfl) edges

lemma foldl_decayKey (ts : ℚ) {keys : List EdgeKey} (h : keys.Nodup) (m : EdgeTable) :
    keys.foldl (decayKey cfg ts) m = m.mapVals fun k row => if k ∈ keys then decayRow cfg ts row else row := by
  induction keys generalizing m with
  | nil => simp [OrderedMap.mapVals]
  | cons key keys ih =>
    obtain ⟨hkey, hkeys⟩ := List.nodup_cons.mp h
    rw [List.foldl_cons, ih hkeys]
    apply OrderedMap.ext
    simp only [decayKey, OrderedMap.mapVals, List.map_map]
    apply List.map_congr_left
    rintro ⟨k, row⟩ -
    by_cases hk : k = key
    · subst hk
      simp [hkey]
    · simp [hk]

lemma decayKeys_nodup (m : EdgeTable) : (decayKeys cfg o m).Nodup := m.keys_nodup.filter _

lemma foldl_decayKeys (m : EdgeTable) : (decayKeys cfg o m).foldl (decayKey cfg o.ts) m =
    decayAbsentEdges cfg o.present o.ts (o.graph.edges.map (edgeKeyOf cfg)) m := by
  rw [foldl_decayKey cfg o.ts (decayKeys_nodup cfg m), decayAbsentEdges]
  apply OrderedMap.ext
  apply List.map_congr_left
  rintro ⟨k, row⟩ hk
  have hmem : k ∈ m.keys := List.mem_map_of_mem (f := Prod.fst) hk
  have hiff : k ∈ decayKeys cfg o m ↔ decays cfg o.present (o.graph.edges.map (edgeKeyOf cfg)) k := by
    rw [decayKeys, List.mem_filter, decide_eq_true_eq, and_iff_right hmem]
  simp only [hiff]

lemma written_decays (keys : List EdgeKey) : Connection.written db (statements digest cfg o (keys.map .decay)) =
    { db with edgeMemory := keys.foldl (decayKey cfg o.ts) db.edgeMemory } :=
  written_edges digest cfg db (fun _ _ => rfl) keys

lemma written_learn : Connection.written db (statements digest cfg o (learnWrites cfg o)) =
    { db with edgeMemory := learnedEdges cfg o db.edgeMemory } := by
  rw [learnWrites, statements_append, Connection.written_append, written_seeds, written_confirms]
  rfl

lemma updateEdges_eq (m : EdgeTable) : updateEdges cfg o.present o.ts o.witness o.graph.edges m =
    decayAbsentEdges cfg o.present o.ts (o.graph.edges.map (edgeKeyOf cfg)) (learnedEdges cfg o m) := by
  rw [updateEdges, learnedEdges, seedKeys]
  cases o.witness <;> rfl

lemma operations_complete (c : Connection Db) : c.carryOut (operations digest cfg o c.current) =
    ⟨(observe digest cfg c.current o).1, (observe digest cfg c.current o).1⟩ := by
  have hlast : Connection.written (Connection.written c.current (baselineWrites cfg o))
      (statements digest cfg o (passWrites digest cfg o c.current.edgeMemory c.current.cases)) =
        (observe digest cfg c.current o).1 := by
    rw [baselineWrites_written, passWrites, statements_append, statements_append, Connection.written_append,
      Connection.written_append, written_learn, written_decays, foldl_decayKeys, ← updateEdges_eq, observe, remember,
      promoteCase, archiveWrites]
    cases incident cfg o.graph with
    | none =>
      dsimp only [Option.elim]
      split_ifs <;> rfl
    | some inc =>
      dsimp only [Option.elim]
      split_ifs <;> rfl
  rw [operations, Connection.carryOut_append, Connection.carryOut_transaction, Connection.carryOut_transaction, hlast]

end Agreement

end CausalEngine.Memory
