import CausalEngine.Aggregator.Ring
import CausalEngine.Correlation.RobustScale
import CausalEngine.Foundations.Floating

/-! The aggregator's ticks: the pack is queried, the ring is filled, breaches of a threshold are printed and the last
of them kept. `parseFinite` reads the text of a sample and gives no NaN and no infinity; `round` is the rounding of
floating-point operations, which may overflow, so that an event can have a score that JSON has no text for. -/

namespace CausalEngine.Aggregator

open Foundations Correlation

/-- A series of the answer to a query, and what the clock reads when its sample is taken and when it is reported.
`value` is none where the answer has no text. -/
structure PromResult where
  metric : OrderedMap String String
  value : Option String
  takenAt : ℤ
  reportedAt : String

abbrev Prom := ℕ → String → Option (List PromResult)

structure Event where
  v : ℤ
  ts : String
  kind : String
  ns : String
  pod : String
  signal : String
  value : ℚ
  zscore : Floating
  threshold : ℚ
  windowS : ℤ
deriving DecidableEq

def schemaSignals : List String :=
  ["cpu", "mem", "net_rx", "net_tx", "pvc_io_util", "pvc_capacity", "psi_cpu", "psi_mem", "psi_io", "restarts",
    "latency_p95", "log_error_rate"]

def Pack.thresholdFor (p : Pack ℚ) (sig : String) : Option ℚ :=
  if sig = "pvc_capacity" then p.thresholds.get? "pvc_capacity"
  else if sig = "psi_cpu" ∨ sig = "psi_mem" ∨ sig = "psi_io" then p.thresholds.get? "psi_some_avg"
  else if sig = "latency_p95" then p.thresholds.get? "latency_p95_s"
  else none

-- the median here is the upper one
def upperMedian (x : Vec) : ℚ := (sorted x).getD (x.length / 2) 0

def zscore (hist : Vec) (v : ℚ) : ℚ :=
  let med := upperMedian hist
  let mad := upperMedian (absDev hist med)
  if hist.length < 12 then 0
  else if mad = 0 then 0
  else (v - med) / (14826 / 10000 * mad)

/-- The score as floating point computes it. -/
def roundedZscore (round : ℚ → Floating) (hist : Vec) (v : ℚ) : Floating :=
  let med := upperMedian hist
  let dev := hist.map fun x => (Floating.sub round (.finite x) (.finite med)).abs
  let mad := (dev.insertionSort (· ≤ ·)).getD (dev.length / 2) (.finite 0)
  if hist.length < 12 then .finite 0
  else if mad = .finite 0 then .finite 0
  else Floating.div round (Floating.sub round (.finite v) (.finite med))
    (Floating.mul round (round (14826 / 10000)) mad)

inductive Json
  | text (s : String)
  | number (q : ℚ)
deriving DecidableEq

/-- A zero `zscore`, `threshold` or `windowS` is not written out. There is no text for a score that is not finite. -/
def Event.marshal (ev : Event) : Option (List (String × Json)) := ev.zscore.rat?.map fun z =>
  [("v", .number ev.v), ("ts", .text ev.ts), ("kind", .text ev.kind), ("namespace", .text ev.ns),
    ("pod", .text ev.pod), ("signal", .text ev.signal), ("value", .number ev.value)] ++
  (if z = 0 then [] else [("zscore", .number z)]) ++
  (if ev.threshold = 0 then [] else [("threshold", .number ev.threshold)]) ++
  (if ev.windowS = 0 then [] else [("window_s", .number ev.windowS)])

section Ticks

variable (round : ℚ → Floating) (parseFinite : String → Option ℚ)

def promQuery (result : List PromResult) : List (Sample ℚ × String) :=
  result.filterMap fun r => (r.value.bind parseFinite).map fun v =>
    (⟨r.takenAt, (r.metric.get? "pod").getD "", (r.metric.get? "namespace").getD "", "", v⟩, r.reportedAt)

variable (p : Pack ℚ)

def Pack.judge (hist : Vec) (s : Sample ℚ) (now : String) : Option Event :=
  if s.sig ∈ schemaSignals then
    (p.thresholdFor s.sig).bind fun thr => if thr < s.value
      then some ⟨1, now, "anomaly_candidate", s.ns, s.pod, s.sig, s.value, roundedZscore round hist s.value, thr, 60⟩
      else none
  else none

def Pack.take (sig : String) (st : Ring ℚ × List Event) (s : Sample ℚ × String) : Option (Ring ℚ × List Event) :=
  if s.1.pod = "" then some st
  else
    let t := { s.1 with sig := sig }
    (st.1.add t).map fun ring => (ring, st.2 ++ (p.judge round (ring.series t.ns t.pod sig) t s.2).toList)

def Pack.evalEvents (prom : Prom) (ring : Ring ℚ) : Option (Ring ℚ × List Event) :=
  p.order.zipIdx.foldlM (fun st q => (prom q.2 ((p.queries.get? q.1).getD "")).elim (some st) fun result =>
    (promQuery parseFinite result).foldlM (p.take round q.1) st) (ring, [])

structure Monitor where
  ring : Ring ℚ
  printed : List (Option (List (String × Json)))
  recent : List Event

def Pack.monitor : Monitor := ⟨p.ring, [], []⟩

def Monitor.events (m : Monitor) : Option (List (List (String × Json))) := m.recent.mapM Event.marshal

def Monitor.emit (m : Monitor) (ev : Event) : Monitor :=
  let recent := m.recent ++ [ev]
  { m with printed := m.printed ++ [ev.marshal],
           recent := if 256 < recent.length then recent.drop (recent.length - 256) else recent }

def Pack.tick (m : Monitor) (prom : Prom) : Option Monitor :=
  (p.evalEvents round parseFinite prom m.ring).map fun (ring, events) =>
    events.foldl Monitor.emit { m with ring := ring }

end Ticks

section Stream

variable (round : ℚ → Floating) (parseFinite : String → Option ℚ) (p : Pack ℚ)

def named (sig : String) (s : Sample ℚ × String) : Option (Sample ℚ × String) :=
  if s.1.pod = "" then none else some ({ s.1 with sig := sig }, s.2)

def Pack.accepted (prom : Prom) : List (Sample ℚ × String) :=
  p.order.zipIdx.flatMap fun q =>
    ((prom q.2 ((p.queries.get? q.1).getD "")).elim [] (promQuery parseFinite)).filterMap (named q.1)

def Pack.lastValues (adds : List (Sample ℚ)) (s : Sample ℚ) : Vec :=
  ((adds.filter fun t => ringKey t.ns t.pod t.sig = ringKey s.ns s.pod s.sig).rtake
    p.ring.capN.toInt.toNat).map Sample.value

/-- The breaches in a stream: each sample is judged against the values it has come after, its own included. -/
def Pack.report (stream : List (Sample ℚ × String)) : List Event :=
  (List.range stream.length).filterMap fun i => stream[i]?.bind fun s =>
    p.judge round (p.lastValues ((stream.take (i + 1)).map Prod.fst) s.1) s.1 s.2

def Pack.feed (st : Ring ℚ × List Event) (s : Sample ℚ × String) : Option (Ring ℚ × List Event) :=
  (st.1.add s.1).map fun ring =>
    (ring, st.2 ++ (p.judge round (ring.series s.1.ns s.1.pod s.1.sig) s.1 s.2).toList)

variable {round parseFinite p}

lemma foldlM_flatMap {α β σ : Type} (f : α → List β) (g : σ → β → Option σ) (l : List α) (s : σ) :
    (l.flatMap f).foldlM g s = l.foldlM (fun s a => (f a).foldlM g s) s := by
  induction l generalizing s with
  | nil => rfl
  | cons a l ih => simp only [List.flatMap_cons, List.foldlM_append, List.foldlM_cons, ih]

lemma evalEvents_eq (prom : Prom) (ring : Ring ℚ) :
    p.evalEvents round parseFinite prom ring = (p.accepted parseFinite prom).foldlM (p.feed round) (ring, []) := by
  rw [Pack.evalEvents, Pack.accepted, foldlM_flatMap]
  congr 1
  funext st q
  cases prom q.2 ((p.queries.get? q.1).getD "") with
  | none => rfl
  | some result =>
    rw [Option.elim_some, Option.elim_some, List.foldlM_filterMap]
    congr 1
    funext st s
    rw [Pack.take, named]
    split_ifs <;> rfl

lemma report_concat (stream : List (Sample ℚ × String)) (s : Sample ℚ × String) :
    p.report round (stream ++ [s]) = p.report round stream ++
      (p.judge round (p.lastValues ((stream ++ [s]).map Prod.fst) s.1) s.1 s.2).toList := by
  have hlast : (stream ++ [s])[stream.length]? = some s := List.getElem?_concat_length
  rw [Pack.report, List.length_append, List.length_singleton, List.range_succ, List.filterMap_append]
  congr 1
  · apply List.filterMap_congr
    intro i hi
    have hlt : i < stream.length := List.mem_range.mp hi
    rw [List.getElem?_append_left hlt, List.take_append_of_le_length hlt]
  · rw [List.filterMap_cons, List.filterMap_nil, hlast, Option.bind_some, List.take_of_length_le (by simp)]
    cases p.judge round (p.lastValues ((stream ++ [s]).map Prod.fst) s.1) s.1 s.2 <;> rfl

lemma feed_keeps {ring : Ring ℚ} {before : List (Sample ℚ × String)} (h : ring.Keeps (before.map Prod.fst))
    (hcapN : ring.capN = p.ring.capN) (hcap : 0 ≤ p.ring.capN.toInt) (events : List Event)
    (s : Sample ℚ × String) : ∃ ring' new, p.feed round (ring, events) s = some (ring', events ++ new) ∧
      ring'.capN = p.ring.capN ∧ ring'.Keeps ((before ++ [s]).map Prod.fst) ∧
      p.report round (before ++ [s]) = p.report round before ++ new := by
  obtain ⟨ring', hadd, hcapN', hkeeps⟩ := h.add (by rwa [hcapN]) s.1
  rw [hcapN] at hcapN'
  have hseries : ring'.series s.1.ns s.1.pod s.1.sig = p.lastValues ((before ++ [s]).map Prod.fst) s.1 := by
    rw [Ring.series, hkeeps, hcapN', Pack.lastValues, List.map_append, List.map_singleton]
  refine ⟨ring', _, ?_, hcapN', by rwa [List.map_append], report_concat before s⟩
  rw [Pack.feed, hadd, Option.map_some, hseries]

lemma feed_run {ring : Ring ℚ} {before : List (Sample ℚ × String)} (h : ring.Keeps (before.map Prod.fst))
    (hcapN : ring.capN = p.ring.capN) (hcap : 0 ≤ p.ring.capN.toInt) (events : List Event)
    (stream : List (Sample ℚ × String)) :
    ∃ ring' new, stream.foldlM (p.feed round) (ring, events) = some (ring', events ++ new) ∧
      ring'.capN = p.ring.capN ∧ ring'.Keeps ((before ++ stream).map Prod.fst) ∧
      p.report round (before ++ stream) = p.report round before ++ new := by
  induction stream generalizing ring before events with
  | nil => exact ⟨ring, [], by simp, hcapN, by simpa using h, by simp⟩
  | cons s stream ih =>
    obtain ⟨ring₁, new₁, hfeed, hcapN₁, hkeeps₁, hreport₁⟩ := feed_keeps h hcapN hcap events s
    obtain ⟨ring₂, new₂, hrun, hcapN₂, hkeeps₂, hreport₂⟩ := ih hkeeps₁ hcapN₁ (events ++ new₁)
    rw [List.append_assoc, List.singleton_append] at hkeeps₂ hreport₂
    refine ⟨ring₂, new₁ ++ new₂, ?_, hcapN₂, hkeeps₂, ?_⟩
    · rw [List.foldlM_cons, hfeed, ← List.append_assoc]
      exact hrun
    · rw [hreport₂, hreport₁, List.append_assoc]

end Stream

section Schema

/-- The frozen schema of events, property by property. Its object `context` is never written. -/
def eventRule (property : String) (j : Json) : Prop :=
  match property, j with
  | "v", j => j = .number 1
  | "kind", .text s => s ∈ ["anomaly_candidate", "threshold_breach", "restart", "oom", "probe_fail"]
  | "signal", .text s => s ∈ ["cpu", "mem", "net_rx", "net_tx", "pvc_io_util", "pvc_capacity", "psi_cpu", "psi_mem",
      "psi_io", "restarts", "latency_p95", "log_error_rate"]
  | "ts", .text _ | "namespace", .text _ | "pod", .text _ => True
  | "value", .number _ | "zscore", .number _ | "threshold", .number _ => True
  | "window_s", .number q => q.isInt
  | _, _ => False

def Conforms (members : List (String × Json)) : Prop :=
  (∀ k ∈ ["v", "ts", "kind", "namespace", "pod", "signal", "value"], k ∈ members.map Prod.fst) ∧
  ∀ e ∈ members, eventRule e.1 e.2

variable {round : ℚ → Floating} {p : Pack ℚ}

lemma judge_eq_some {hist : Vec} {s : Sample ℚ} {now : String} {ev : Event} (h : p.judge round hist s now = some ev) :
    s.sig ∈ schemaSignals ∧ ∃ thr, p.thresholdFor s.sig = some thr ∧ thr < s.value ∧
      ev = ⟨1, now, "anomaly_candidate", s.ns, s.pod, s.sig, s.value, roundedZscore round hist s.value, thr, 60⟩ := by
  rw [Pack.judge] at h
  split_ifs at h with hsig
  obtain ⟨thr, hthr, hev⟩ := Option.bind_eq_some_iff.mp h
  split_ifs at hev with hover
  exact ⟨hsig, thr, hthr, hover, (Option.some.inj hev).symm⟩

lemma conforms_of_judge {hist : Vec} {s : Sample ℚ} {now : String} {ev : Event}
    (h : p.judge round hist s now = some ev) {line : List (String × Json)} (hline : ev.marshal = some line) :
    Conforms line := by
  obtain ⟨hsig, thr, -, -, rfl⟩ := judge_eq_some h
  obtain ⟨z, -, rfl⟩ := Option.map_eq_some_iff.mp hline
  refine ⟨?_, ?_⟩
  · intro k hk
    simp only [List.map_append, List.mem_append]
    exact Or.inl (Or.inl (Or.inl hk))
  · intro e he
    simp only [List.mem_append, List.mem_cons, List.not_mem_nil, or_false] at he
    rcases he with ((he | he) | he) | he
    · rcases he with rfl | rfl | rfl | rfl | rfl | rfl | rfl
      · rfl
      · trivial
      · exact List.mem_cons_self
      · trivial
      · trivial
      · exact hsig
      · trivial
    · split_ifs at he with hz
      · cases he
      · rw [List.mem_singleton.mp he]
        trivial
    · split_ifs at he with hz
      · cases he
      · rw [List.mem_singleton.mp he]
        trivial
    · rw [if_neg (by decide), List.mem_singleton] at he
      rw [he]
      rfl

end Schema

section Monitor

variable {round : ℚ → Floating} {parseFinite : String → Option ℚ} {p : Pack ℚ}

lemma emit_all (m : Monitor) {past : List Event} (h : m.recent = past.rtake 256) (events : List Event) :
    events.foldl Monitor.emit m =
      ⟨m.ring, m.printed ++ events.map Event.marshal, (past ++ events).rtake 256⟩ := by
  induction events generalizing m past with
  | nil =>
    rw [List.map_nil, List.append_nil, List.append_nil, ← h]
    rfl
  | cons ev events ih =>
    have hrecent : (m.emit ev).recent = (past ++ [ev]).rtake 256 := by
      simp only [Monitor.emit, h]
      rw [← rtake_concat]
      split_ifs with hover
      · rfl
      · rw [rtake_of_length_le (not_lt.mp hover)]
    rw [List.foldl_cons, ih _ hrecent, Monitor.emit, List.append_assoc, List.append_assoc, List.map_cons,
      List.singleton_append, List.singleton_append]

variable (round) in
structure Pack.Has (p : Pack ℚ) (m : Monitor) (stream : List (Sample ℚ × String)) : Prop where
  capN : m.ring.capN = p.ring.capN
  ring : m.ring.Keeps (stream.map Prod.fst)
  printed : m.printed = (p.report round stream).map Event.marshal
  recent : m.recent = (p.report round stream).rtake 256

lemma has_monitor : p.Has round p.monitor [] := ⟨rfl, keeps_empty _, rfl, (List.rtake_nil _).symm⟩

variable (parseFinite) in
lemma Pack.Has.tick {m : Monitor} {stream : List (Sample ℚ × String)} (h : p.Has round m stream)
    (hcap : 0 ≤ p.ring.capN.toInt) (prom : Prom) :
    ∃ m', p.tick round parseFinite m prom = some m' ∧ p.Has round m' (stream ++ p.accepted parseFinite prom) := by
  obtain ⟨ring, new, hrun, hcapN, hkeeps, hreport⟩ := feed_run h.ring h.capN hcap [] (p.accepted parseFinite prom)
  refine ⟨⟨ring, m.printed ++ new.map Event.marshal, (p.report round stream ++ new).rtake 256⟩, ?_, hcapN, hkeeps,
    ?_, ?_⟩
  · rw [Pack.tick, evalEvents_eq, hrun, Option.map_some]
    exact congrArg some (emit_all { m with ring := ring } h.recent new)
  · rw [hreport, h.printed, List.map_append]
  · rw [hreport]

variable (parseFinite) in
lemma Pack.Has.ticks {m : Monitor} {stream : List (Sample ℚ × String)} (h : p.Has round m stream)
    (hcap : 0 ≤ p.ring.capN.toInt) (proms : List Prom) :
    ∃ m', proms.foldlM (p.tick round parseFinite) m = some m' ∧
      p.Has round m' (stream ++ proms.flatMap (p.accepted parseFinite)) := by
  induction proms generalizing m stream with
  | nil => exact ⟨m, rfl, by simpa using h⟩
  | cons prom proms ih =>
    obtain ⟨m₁, htick, hhas₁⟩ := h.tick parseFinite hcap prom
    obtain ⟨m₂, hticks, hhas₂⟩ := ih hhas₁
    refine ⟨m₂, ?_, ?_⟩
    · rw [List.foldlM_cons, htick]
      exact hticks
    · rwa [List.flatMap_cons, ← List.append_assoc]

lemma marshal_eq_none {ev : Event} : ev.marshal = none ↔ ev.zscore.rat? = none := Option.map_eq_none_iff

lemma mapM_eq_none_iff {α β : Type} {f : α → Option β} {l : List α} : l.mapM f = none ↔ ∃ a ∈ l, f a = none := by
  induction l with
  | nil => simp
  | cons a l ih =>
    rw [List.mapM_cons, List.exists_mem_cons_iff, ← ih]
    cases f a <;> cases l.mapM f <;> simp

/-- Whatever the metrics server answers and however operations round, the aggregator stays up. It reports exactly the
samples it accepts that are over their threshold, in their order: each is printed in the form of the schema or, where
its score is not finite, as an empty line. It keeps the last 256 reports and serves them, unless one has such a
score. -/
theorem ticks_report (round : ℚ → Floating) (parseFinite : String → Option ℚ) (p : Pack ℚ)
    (hcap : 0 ≤ p.ring.capN.toInt) (proms : List Prom) :
    ∃ m, proms.foldlM (p.tick round parseFinite) p.monitor = some m ∧
      m.printed = (p.report round (proms.flatMap (p.accepted parseFinite))).map Event.marshal ∧
      (∀ ev ∈ p.report round (proms.flatMap (p.accepted parseFinite)),
        (ev.marshal = none ↔ ev.zscore.rat? = none) ∧ ∀ line, ev.marshal = some line → Conforms line) ∧
      m.recent = (p.report round (proms.flatMap (p.accepted parseFinite))).rtake 256 ∧
      (m.events = none ↔ ∃ ev ∈ m.recent, ev.zscore.rat? = none) ∧
      ∀ ns pod sig : String, '/' ∉ ns.toList → '/' ∉ pod.toList → '/' ∉ sig.toList → m.ring.series ns pod sig =
        ((((proms.flatMap (p.accepted parseFinite)).map Prod.fst).filter fun s => s.IsOf ns pod sig).map
          Sample.value).rtake p.ring.capN.toInt.toNat := by
  obtain ⟨m, hrun, hhas⟩ := has_monitor.ticks parseFinite hcap proms
  rw [List.nil_append] at hhas
  refine ⟨m, hrun, hhas.printed, ?_, hhas.recent, ?_, ?_⟩
  · intro ev hev
    rw [Pack.report, List.mem_filterMap] at hev
    obtain ⟨i, -, hi⟩ := hev
    obtain ⟨s, -, hs⟩ := Option.bind_eq_some_iff.mp hi
    exact ⟨marshal_eq_none, fun line => conforms_of_judge hs⟩
  · rw [Monitor.events, mapM_eq_none_iff]
    simp only [marshal_eq_none]
  · intro ns pod sig hns hpod hsig
    rw [hhas.ring.series hns hpod hsig, hhas.capN]

def stallPack : Pack ℚ :=
  ⟨5, 15, .ofList [("psi_io", "rate(container_pressure_io_stalled_seconds_total[30s])")], ["psi_io"],
    .ofList [("psi_some_avg", 1 / 5)]⟩

def mockProm (value : String) : Prom := fun _ _ =>
  some [⟨.ofList [("namespace", "factory-data"), ("pod", "cooling-monitor-1")], some value, 0, "2024-06-10T06:13:20Z"⟩]

def mockFinite (s : String) : Option ℚ :=
  if s = "0.94" then some (94 / 100) else if s = "5e-324" then some (1 / 2 ^ 1074) else if s = "0" then some 0 else none

def overflowing (q : ℚ) : Floating := if |q| < 2 ^ 1024 then .finite q else .inf (q < 0)

theorem ticks_report_breach : ∃ m, ((List.replicate 6 (mockProm "0") ++ List.replicate 6 (mockProm "5e-324")) ++
      [mockProm "0.94", fun _ _ => none, mockProm "NaN"]).foldlM (stallPack.tick overflowing mockFinite)
        stallPack.monitor = some m ∧
    m.printed = [none] ∧ m.events = none ∧ m.recent = [⟨1, "2024-06-10T06:13:20Z", "anomaly_candidate", "factory-data",
      "cooling-monitor-1", "psi_io", 94 / 100, .inf false, 1 / 5, 60⟩] := by
  obtain ⟨m, hrun, hprinted, -, hrecent, hevents, -⟩ := ticks_report overflowing mockFinite stallPack (by decide)
    ((List.replicate 6 (mockProm "0") ++ List.replicate 6 (mockProm "5e-324")) ++
      [mockProm "0.94", fun _ _ => none, mockProm "NaN"])
  have hreport : stallPack.report overflowing (((List.replicate 6 (mockProm "0") ++
      List.replicate 6 (mockProm "5e-324")) ++ [mockProm "0.94", fun _ _ => none, mockProm "NaN"]).flatMap
        (stallPack.accepted mockFinite)) = [⟨1, "2024-06-10T06:13:20Z", "anomaly_candidate", "factory-data",
          "cooling-monitor-1", "psi_io", 94 / 100, .inf false, 1 / 5, 60⟩] := by decide +kernel
  rw [hreport] at hprinted hrecent
  refine ⟨m, hrun, hprinted, hevents.mpr ?_, hrecent⟩
  rw [hrecent]
  exact ⟨_, List.mem_cons_self, rfl⟩

end Monitor

section Scores

lemma sorted_map {f : ℚ → ℚ} (hf : StrictMono f) (x : Vec) : sorted (x.map f) = (sorted x).map f :=
  (List.map_insertionSort (· ≤ ·) (· ≤ ·) f x fun _ _ _ _ => hf.le_iff_le.symm).symm

lemma upperMedian_map {f : ℚ → ℚ} (hf : StrictMono f) {x : Vec} (hx : x ≠ []) :
    upperMedian (x.map f) = f (upperMedian x) := by
  have hlt : x.length / 2 < (sorted x).length := by
    rw [sorted_length]
    exact Nat.div_lt_self (List.length_pos_of_ne_nil hx) (by decide)
  rw [upperMedian, upperMedian, sorted_map hf, List.length_map, List.getD_eq_getElem _ _ (by simpa using hlt),
    List.getElem_map, List.getD_eq_getElem _ _ hlt]

lemma sorted_getD_le_iff {x : Vec} {c : ℚ} {j : ℕ} (hj : j < x.length) :
    (sorted x).getD j 0 ≤ c ↔ j < x.countP (· ≤ c) := by
  refine ⟨?_, sorted_getD_le⟩
  intro hc
  have hlen : j < (sorted x).length := by rwa [sorted_length]
  have hsorted : (sorted x).Pairwise (· ≤ ·) := List.pairwise_insertionSort _ _
  rw [List.getD_eq_getElem _ _ hlen] at hc
  have hperm : (sorted x).Perm x := List.perm_insertionSort _ x
  have htake : ((sorted x).take (j + 1)).countP (· ≤ c) = j + 1 := by
    have hall : ∀ v ∈ (sorted x).take (j + 1), decide (v ≤ c) = true := by
      intro v hv
      obtain ⟨i, hi, rfl⟩ := List.mem_take_iff_getElem.mp hv
      have hij : i ≤ j := by omega
      have hle : (sorted x)[i] ≤ (sorted x)[j] := by
        rcases hij.eq_or_lt with rfl | hij
        · exact le_rfl
        · exact List.pairwise_iff_getElem.mp hsorted i j _ hlen hij
      exact decide_eq_true (hle.trans hc)
    rw [List.countP_eq_length.mpr hall, List.length_take]
    omega
  rw [← hperm.countP_eq, ← List.take_append_drop (j + 1) (sorted x), List.countP_append, htake]
  omega

variable {x : Vec} {c d v : ℚ}

lemma upperMedian_le_iff (hx : x ≠ []) : upperMedian x ≤ c ↔ x.length < 2 * x.countP (· ≤ c) := by
  have hpos := List.length_pos_of_ne_nil hx
  rw [upperMedian, sorted_getD_le_iff (by omega)]
  omega

lemma le_upperMedian (h : x.length < 2 * x.countP (c ≤ ·)) : c ≤ upperMedian x := by
  have hx : x ≠ [] := by
    rintro rfl
    simp at h
  by_contra hlt
  have hupper := (upperMedian_le_iff hx).mp le_rfl
  have hsplit := List.length_eq_countP_add_countP (fun w => decide (w ≤ upperMedian x)) (l := x)
  have hmono : x.countP (c ≤ ·) ≤ x.countP fun w => ¬ decide (w ≤ upperMedian x) := by
    apply List.countP_mono_left
    intro w _ hw
    rw [decide_eq_true_eq] at hw
    simpa using (not_le.mp hlt).trans_le hw
  simp only [decide_not] at hsplit hmono
  omega

lemma upperMedian_near (h : x.length < 2 * x.countP (|· - c| ≤ d)) : |upperMedian x - c| ≤ d := by
  have hx : x ≠ [] := by
    rintro rfl
    simp at h
  have hhigh : x.countP (|· - c| ≤ d) ≤ x.countP (· ≤ c + d) := by
    apply List.countP_mono_left
    intro w _ hw
    rw [decide_eq_true_eq, abs_le] at hw
    exact decide_eq_true (by linarith)
  have hlow : x.countP (|· - c| ≤ d) ≤ x.countP (c - d ≤ ·) := by
    apply List.countP_mono_left
    intro w _ hw
    rw [decide_eq_true_eq, abs_le] at hw
    exact decide_eq_true (by linarith)
  have hle : upperMedian x ≤ c + d := (upperMedian_le_iff hx).mpr (by omega)
  have hge : c - d ≤ upperMedian x := le_upperMedian (by omega)
  rw [abs_le]
  constructor <;> linarith

def mad (x : Vec) : ℚ := upperMedian (absDev x (upperMedian x))

lemma zscore_eq (hist : Vec) (v : ℚ) : zscore hist v =
    if hist.length < 12 then 0 else if mad hist = 0 then 0
    else (v - upperMedian hist) / (14826 / 10000 * mad hist) := rfl

lemma roundedZscore_exact (hist : Vec) (v : ℚ) : roundedZscore .finite hist v = .finite (zscore hist v) := by
  have hdev : (hist.map fun x => (Floating.sub .finite (.finite x) (.finite (upperMedian hist))).abs) =
      (absDev hist (upperMedian hist)).map Floating.finite := by
    rw [absDev, List.map_map]
    apply List.map_congr_left
    intro x _
    exact congrArg (fun w => Floating.finite |w|) (sub_eq_add_neg x (upperMedian hist)).symm
  have hsort : ((absDev hist (upperMedian hist)).map Floating.finite).insertionSort (· ≤ ·) =
      (sorted (absDev hist (upperMedian hist))).map Floating.finite :=
    (List.map_insertionSort (· ≤ ·) (· ≤ ·) Floating.finite _ fun _ _ _ _ => Floating.finite_le_iff.symm).symm
  have hmad : (((sorted (absDev hist (upperMedian hist))).map Floating.finite).getD
      ((absDev hist (upperMedian hist)).length / 2) (.finite 0)) = .finite (mad hist) := List.getD_map ..
  simp only [roundedZscore, hdev, hsort, List.length_map, hmad, Floating.finite.injEq]
  rw [zscore_eq]
  split_ifs with hshort hzero
  · rfl
  · rfl
  · have hne : 14826 / 10000 * mad hist ≠ 0 := by positivity
    rw [Floating.sub, Floating.neg, Floating.mul, Floating.add, Floating.div, if_pos hne, sub_eq_add_neg]

lemma countP_absDev (x : Vec) (c d : ℚ) : (absDev x c).countP (· ≤ d) = x.countP (|· - c| ≤ d) := by
  rw [absDev, List.countP_map]
  rfl

lemma mad_le_iff (hx : x ≠ []) : mad x ≤ d ↔ x.length < 2 * x.countP (|· - upperMedian x| ≤ d) := by
  rw [mad, upperMedian_le_iff (by simpa [absDev] using hx), countP_absDev, absDev, List.length_map]

lemma mad_nonneg (x : Vec) : 0 ≤ mad x := by
  rcases eq_or_ne x [] with rfl | hx
  · exact le_rfl
  · by_contra hneg
    have hcount := (mad_le_iff hx).mp le_rfl
    have hzero : x.countP (|· - upperMedian x| ≤ mad x) = 0 := by
      rw [List.countP_eq_zero]
      intro w _ hw
      exact hneg ((abs_nonneg _).trans (of_decide_eq_true hw))
    omega

lemma mad_near (h : x.length < 2 * x.countP (|· - c| ≤ d)) : mad x ≤ 2 * d := by
  have hx : x ≠ [] := by
    rintro rfl
    simp at h
  have hmed := abs_le.mp (upperMedian_near h)
  have hmono : x.countP (|· - c| ≤ d) ≤ x.countP (|· - upperMedian x| ≤ 2 * d) := by
    apply List.countP_mono_left
    intro w _ hw
    rw [decide_eq_true_eq, abs_le] at hw
    exact decide_eq_true (abs_le.mpr ⟨by linarith, by linarith⟩)
  rw [mad_le_iff hx]
  omega

lemma mad_eq_zero_iff (hx : x ≠ []) : mad x = 0 ↔ ∃ c, x.length < 2 * x.count c := by
  have hcount : ∀ c, x.countP (|· - c| ≤ 0) = x.count c := by
    intro c
    rw [List.count]
    congr 1
    funext w
    rw [beq_eq_decide, decide_eq_decide, abs_nonpos_iff, sub_eq_zero]
  constructor
  · intro h
    have hmed := (mad_le_iff hx).mp h.le
    rw [hcount] at hmed
    exact ⟨_, hmed⟩
  · rintro ⟨c, hc⟩
    rw [← hcount] at hc
    have hmed := mad_near hc
    rw [mul_zero] at hmed
    exact le_antisymm hmed (mad_nonneg x)

lemma affine_strictMono {a : ℚ} (ha : 0 < a) (b : ℚ) : StrictMono fun w : ℚ => a * w + b := fun _ _ hw =>
  add_lt_add_left (mul_lt_mul_of_pos_left hw ha) b

lemma mad_affine {a : ℚ} (ha : 0 < a) (b : ℚ) (hx : x ≠ []) : mad (x.map fun w => a * w + b) = a * mad x := by
  have hscale : StrictMono fun w : ℚ => a * w := fun w w' hw => mul_lt_mul_of_pos_left hw ha
  have hdev : absDev (x.map fun w => a * w + b) (a * upperMedian x + b) =
      (absDev x (upperMedian x)).map (a * ·) := by
    rw [absDev, absDev, List.map_map, List.map_map]
    apply List.map_congr_left
    intro w _
    have hsub : a * w + b - (a * upperMedian x + b) = a * (w - upperMedian x) := by ring
    rw [Function.comp_apply, Function.comp_apply, hsub, abs_mul, abs_of_pos ha]
  rw [mad, upperMedian_map (affine_strictMono ha b) hx, hdev, upperMedian_map hscale (by simpa [absDev] using hx), mad]

lemma zscore_short {hist : Vec} (hshort : hist.length < 12) (v : ℚ) : zscore hist v = 0 := by
  rw [zscore_eq, if_pos hshort]

lemma zscore_affine (hist : Vec) (v : ℚ) {a : ℚ} (ha : 0 < a) (b : ℚ) :
    zscore (hist.map fun w => a * w + b) (a * v + b) = zscore hist v := by
  rcases hist with _ | ⟨w, hist⟩
  · simp [zscore_short]
  have hne : w :: hist ≠ [] := List.cons_ne_nil w hist
  have hsub : a * v + b - (a * upperMedian (w :: hist) + b) = a * (v - upperMedian (w :: hist)) := by ring
  have hmul : 14826 / 10000 * (a * mad (w :: hist)) = a * (14826 / 10000 * mad (w :: hist)) := by ring
  rw [zscore_eq, zscore_eq, List.length_map, mad_affine ha b hne, upperMedian_map (affine_strictMono ha b) hne,
    hsub, hmul, mul_div_mul_left _ _ ha.ne']
  simp only [mul_eq_zero, ha.ne', false_or]

lemma zscore_eq_zero_iff (hist : Vec) (v : ℚ) :
    zscore hist v = 0 ↔ hist.length < 12 ∨ (∃ c, hist.length < 2 * hist.count c) ∨ v = upperMedian hist := by
  rcases lt_or_ge hist.length 12 with hshort | hlong
  · exact iff_of_true (zscore_short hshort v) (Or.inl hshort)
  have hne : hist ≠ [] := by
    rintro rfl
    simp at hlong
  have hlen : ¬ hist.length < 12 := not_lt.mpr hlong
  rw [zscore_eq, if_neg hlen, ← mad_eq_zero_iff hne]
  split_ifs with hmad
  · simp [hmad]
  · rw [div_eq_zero_iff, sub_eq_zero]
    simp [hmad, hlen]

lemma zscore_far {hist : Vec} {v c d : ℚ} (hmost : hist.length < 2 * hist.countP (|· - c| ≤ d))
    (hz : zscore hist v ≠ 0) : |v - c| - d ≤ |zscore hist v| * (14826 / 10000 * (2 * d)) := by
  rw [zscore_eq] at hz ⊢
  split_ifs at hz ⊢ with hlen hmad
  · exact absurd rfl hz
  · exact absurd rfl hz
  have hpos : 0 < mad hist := lt_of_le_of_ne (mad_nonneg hist) (Ne.symm hmad)
  have hmed := upperMedian_near hmost
  have hspread := mad_near hmost
  have hscale : 0 < 14826 / 10000 * mad hist := by positivity
  have hfar : |v - c| - d ≤ |v - upperMedian hist| := by
    have htri := abs_sub_le v (upperMedian hist) c
    linarith
  rw [abs_div, abs_of_pos hscale, div_mul_eq_mul_div, le_div_iff₀ hscale]
  have hnum := abs_nonneg (v - upperMedian hist)
  calc (|v - c| - d) * (14826 / 10000 * mad hist)
      ≤ |v - upperMedian hist| * (14826 / 10000 * mad hist) := mul_le_mul_of_nonneg_right hfar hscale.le
    _ ≤ |v - upperMedian hist| * (14826 / 10000 * (2 * d)) :=
      mul_le_mul_of_nonneg_left (by linarith) hnum

/-- The score does not depend on the unit; it is zero exactly where there is little history, where one value fills more
than half of it, or at the median itself; and what stands far from the most part of the history scores high,
wherever the rest of the history lies. -/
theorem zscore_robust (hist : Vec) (v : ℚ) :
    (∀ a b : ℚ, 0 < a → zscore (hist.map fun w => a * w + b) (a * v + b) = zscore hist v) ∧
    (zscore hist v = 0 ↔ hist.length < 12 ∨ (∃ c, hist.length < 2 * hist.count c) ∨ v = upperMedian hist) ∧
    ∀ c d : ℚ, hist.length < 2 * hist.countP (|· - c| ≤ d) → zscore hist v ≠ 0 →
      |v - c| - d ≤ |zscore hist v| * (14826 / 10000 * (2 * d)) :=
  ⟨fun _ b ha => zscore_affine hist v ha b, zscore_eq_zero_iff hist v, fun _ _ => zscore_far⟩

end Scores

end CausalEngine.Aggregator
