import CausalEngine.Aggregator.FlatPack

/-! The loader returns what the file lists. -/

namespace CausalEngine.Aggregator

open Foundations

variable {F : Type} {parseFloat : String → Option F}

section Entries

variable {r : Reader F}

lemma Entry.laid (e : Entry) : ∃ m b, Body b ∧ e.line = laid (e.indent + 1) m b ∧
    splitKV b = some (e.key, e.value) := by
  obtain ⟨m, b, hb, hpair, hsplit, -⟩ := pair_laid e.isKey e.plain e.gap
  rw [String.ofList_toList, String.ofList_toList] at hsplit
  refine ⟨m, b, hb, ?_, hsplit⟩
  rw [Entry.line, hpair, Aggregator.laid, List.append_assoc]

variable (parseFloat) in
lemma line_entry (r : Reader F) (e : Entry) : ∃ b, splitKV b = some (e.key, e.value) ∧
    r.line parseFloat e.line = r.entry parseFloat b := by
  obtain ⟨m, b, hb, hline, hsplit⟩ := e.laid
  refine ⟨b, hsplit, ?_⟩
  rw [hline, line_laid hb, decide_eq_true (Nat.succ_pos e.indent)]
  rfl

lemma line_query (e : Entry) (hr : r.sec = .queries) :
    r.line parseFloat e.line = { r with pack := r.pack.addQuery e.key e.value } := by
  obtain ⟨b, hsplit, hline⟩ := line_entry parseFloat r e
  rw [hline, Reader.entry, hsplit]
  simp only [hr]

lemma line_threshold (t : Threshold parseFloat) (hr : r.sec = .thresholds) :
    r.line parseFloat t.line =
      { r with pack := { r.pack with thresholds := r.pack.thresholds.set t.key t.number } } := by
  obtain ⟨b, hsplit, hline⟩ := line_entry parseFloat r t.toEntry
  have hvalue : parseFloat (String.ofList (trimSpace t.value.toList)) = some t.number := by
    rw [t.plain.trimmed, String.ofList_toList, t.parses]
  rw [hline, Reader.entry, hsplit]
  simp only [hr, Pack.addThreshold, hvalue, Option.elim_some]

lemma foldl_queries (es : List Entry) (hr : r.sec = .queries) :
    (es.map Entry.line).foldl (Reader.line parseFloat) r =
      { r with pack := { r.pack with
          queries := es.foldl (fun q e => q.set e.key e.value) r.pack.queries
          order := r.pack.order ++ es.map Entry.key } } := by
  induction es generalizing r with
  | nil => simp
  | cons e es ih =>
    rw [List.map_cons, List.foldl_cons, line_query e hr, ih (r := { r with pack := r.pack.addQuery e.key e.value }) hr]
    simp [Pack.addQuery]

lemma foldl_thresholds (ts : List (Threshold parseFloat)) (hr : r.sec = .thresholds) :
    (ts.map fun t => t.toEntry.line).foldl (Reader.line parseFloat) r =
      { r with pack := { r.pack with
          thresholds := ts.foldl (fun m t => m.set t.key t.number) r.pack.thresholds } } := by
  induction ts generalizing r with
  | nil => rfl
  | cons t ts ih =>
    rw [List.map_cons, List.foldl_cons, line_threshold t hr]
    exact ih hr

end Entries

section Headers

variable {r : Reader F}

lemma valOf_split {b : Text} {k v : String} (h : splitKV b = some (k, v)) : valOf b = v := by
  rw [valOf, h, Option.elim_some]

lemma atoiDefault_itoa (n d : Int64) : atoiDefault (String.ofList (itoa n)) d = n := by
  rw [atoiDefault, String.toList_ofList, (plain_itoa n).trimmed, atoi_itoa, Option.getD_some]

lemma isKey_interval : IsKey "interval_s".toList := isKey_of_letters rfl (by decide)

lemma isKey_window : IsKey "window_min".toList := isKey_of_letters rfl (by decide)

variable (parseFloat) in
lemma line_number (r : Reader F) {k : Text} (hk : IsKey k) (n : Int64) :
    ∃ t, valOf (k ++ ':' :: t) = String.ofList (itoa n) ∧
    r.line parseFloat (pairText k 0 (itoa n)) = r.header (k ++ ':' :: t) := by
  obtain ⟨m, b, hb, hpair, hsplit, t, rfl⟩ := pair_laid hk (plain_itoa n) 0
  rw [List.append_assoc, List.singleton_append] at hsplit hb
  refine ⟨t, valOf_split hsplit, ?_⟩
  have hlaid : pairText k 0 (itoa n) = laid 0 m (k ++ ':' :: t) := by
    rw [hpair, laid, List.replicate_zero, List.nil_append, List.append_assoc k, List.singleton_append]
  rw [hlaid, line_laid hb]
  rfl

lemma line_interval (n : Int64) : r.line parseFloat (pairText "interval_s".toList 0 (itoa n)) =
    { r with pack := { r.pack with intervalS := n } } := by
  obtain ⟨t, hval, hline⟩ := line_number parseFloat r isKey_interval n
  have hheader : r.header ("interval_s".toList ++ ':' :: t) =
      { r with pack := { r.pack with intervalS := atoiDefault (valOf ("interval_s".toList ++ ':' :: t)) 5 } } := rfl
  rw [hline, hheader, hval, atoiDefault_itoa]

lemma line_window (n : Int64) : r.line parseFloat (pairText "window_min".toList 0 (itoa n)) =
    { r with pack := { r.pack with windowMin := n } } := by
  obtain ⟨t, hval, hline⟩ := line_number parseFloat r isKey_window n
  have hheader : r.header ("window_min".toList ++ ':' :: t) =
      { r with pack := { r.pack with windowMin := atoiDefault (valOf ("window_min".toList ++ ':' :: t)) 15 } } := rfl
  rw [hline, hheader, hval, atoiDefault_itoa]

lemma line_queries : r.line parseFloat "queries:".toList = { r with sec := .queries } := rfl

lemma line_thresholds : r.line parseFloat "thresholds:".toList = { r with sec := .thresholds } := rfl

end Headers

section Files

variable (f : FlatPack parseFloat)

lemma foldl_lines : (f.lines.foldl (Reader.line parseFloat) Reader.start).pack = f.pack := by
  have hqueries : (f.queries.foldl (fun q e => q.set e.key e.value) .empty : OrderedMap String String) =
      f.pack.queries := by
    have hnodup : ((f.queries.map fun e => (e.key, e.value)).map Prod.fst).Nodup := by
      simpa [Function.comp_def] using f.distinct
    apply OrderedMap.ext
    have hentries := OrderedMap.entries_ofList hnodup
    rwa [OrderedMap.ofList, List.foldl_map] at hentries
  have hthresholds : (f.thresholds.foldl (fun m t => m.set t.key t.number) .empty : OrderedMap String F) =
      f.pack.thresholds := by
    rw [FlatPack.pack, OrderedMap.ofList, List.foldl_map]
  simp only [FlatPack.lines, List.foldl_append, List.foldl_cons, List.foldl_nil]
  rw [line_interval, line_window, line_queries, foldl_queries _ rfl, line_thresholds, foldl_thresholds _ rfl]
  simp only [Reader.start, hqueries, hthresholds]
  rfl

lemma isLaid_pair {k v : Text} (hk : IsKey k) (hv : Plain v) (n gap : ℕ) :
    IsLaid (List.replicate n ' ' ++ pairText k gap v) := by
  obtain ⟨m, b, hb, hpair, -⟩ := pair_laid hk hv gap
  refine ⟨?_, n, m, b, hb, ?_⟩
  · simp [pairText, hk.oneLine, hv.oneLine]
  · rw [laid, hpair, List.append_assoc]

lemma body_queries : Body "queries:".toList := ⟨rfl, by decide, by decide, by decide⟩

lemma body_thresholds : Body "thresholds:".toList := ⟨rfl, by decide, by decide, by decide⟩

lemma isLaid_entry (e : Entry) : IsLaid e.line := isLaid_pair e.isKey e.plain (e.indent + 1) e.gap

lemma isLaid_lines : ∀ l ∈ f.lines, IsLaid l := by
  intro l hl
  simp only [FlatPack.lines, List.mem_append, List.mem_cons, List.mem_map, List.not_mem_nil, or_false] at hl
  obtain ((rfl | rfl | rfl) | ⟨e, -, rfl⟩) | rfl | ⟨t, -, rfl⟩ := hl
  · exact isLaid_pair isKey_interval (plain_itoa _) 0 0
  · exact isLaid_pair isKey_window (plain_itoa _) 0 0
  · exact ⟨by decide, 0, 0, _, body_queries, rfl⟩
  · exact isLaid_entry e
  · exact ⟨by decide, 0, 0, _, body_thresholds, rfl⟩
  · exact isLaid_entry t.toEntry

lemma commented_refl (ls : List Text) : Commented ls ls := by
  induction ls with
  | nil => exact .nil
  | cons l ls ih => exact .keep l ih

lemma commented_short {ls ls' : List Text} (h : Commented ls ls') (hshort : ∀ l ∈ ls', size l < bufferSize) :
    ∀ l ∈ ls, size l < bufferSize := by
  induction h with
  | nil => exact hshort
  | keep l _ ih =>
    rw [List.forall_mem_cons] at hshort ⊢
    exact ⟨hshort.1, ih hshort.2⟩
  | trail l n _ _ ih =>
    rw [List.forall_mem_cons] at hshort ⊢
    refine ⟨lt_of_le_of_lt ?_ hshort.1, ih hshort.2⟩
    simp only [size, List.map_append, List.sum_append]
    omega
  | blank _ _ _ ih => exact ih (List.forall_mem_cons.mp hshort).2
  | comment _ _ _ _ ih => exact ih (List.forall_mem_cons.mp hshort).2

lemma loadPack_fileOf {ls : List Text} (h : Commented f.lines ls) (hshort : ∀ l ∈ ls, size l < bufferSize) :
    loadPack parseFloat (fileOf ls) = .ok f.pack := by
  have honeLine := commented_oneLine h fun l hl => (isLaid_lines f l hl).1
  rw [loadPack, scanLines_fileOf honeLine hshort, Except.map, foldl_commented h (isLaid_lines f), foldl_lines]

/-- The file is read back as what it lists, with and without comments and blank lines. -/
theorem flat_pack_read_back {ls : List Text} (h : Commented f.lines ls) (hshort : ∀ l ∈ ls, size l < bufferSize) :
    loadPack parseFloat (fileOf f.lines) = .ok f.pack ∧ loadPack parseFloat (fileOf ls) = .ok f.pack :=
  ⟨loadPack_fileOf f (commented_refl f.lines) (commented_short h hshort), loadPack_fileOf f h hshort⟩

end Files

section TestPack

def testFloat (s : String) : Option ℚ := if s = "0.20" then some (1 / 5) else none

def testPack : FlatPack testFloat where
  intervalS := 5
  windowMin := 15
  queries := [{
    indent := 1
    key := "psi_io"
    gap := 2
    value := "rate(psi:io_total\x7bnamespace=~\"factory-.*\"\x7d[30s])"
    isKey := isKey_of_letters rfl (by decide)
    plain := ⟨by decide, by decide, by decide, by decide⟩ }]
  distinct := by decide
  thresholds := [{
    indent := 1
    key := "psi_some_avg"
    gap := 0
    value := "0.20"
    isKey := isKey_of_letters rfl (by decide)
    plain := (isKey_of_letters rfl (by decide)).toPlain
    number := 1 / 5
    parses := rfl }]

def testLines : List Text :=
  ["# pack".toList, "interval_s: 5".toList, "window_min: 15  # minutes".toList, [], "queries:".toList,
    "  psi_io:   rate(psi:io_total\x7bnamespace=~\"factory-.*\"\x7d[30s]) # stalls".toList, " \t# idle".toList,
    "thresholds: # per pod".toList, "  psi_some_avg: 0.20".toList]

lemma testLines_commented : Commented testPack.lines testLines :=
  .comment (w := []) (c := " pack".toList) (List.forall_mem_nil _) (by decide) (by decide)
    (.keep _ (.trail (c := " minutes".toList) _ 1 (by decide) (.blank (List.forall_mem_nil _) (by decide)
      (.keep _ (.trail (c := " stalls".toList) _ 0 (by decide)
        (.comment (w := " \t".toList) (c := " idle".toList) (List.all_eq_true.mp rfl) (by decide) (by decide)
          (.trail (c := " per pod".toList) _ 0 (by decide) (.keep _ .nil))))))))

theorem test_pack_read_back : loadPack testFloat (fileOf testPack.lines) = .ok testPack.pack ∧
    loadPack testFloat (fileOf testLines) = .ok testPack.pack :=
  flat_pack_read_back testPack testLines_commented (by decide)

end TestPack

end CausalEngine.Aggregator
