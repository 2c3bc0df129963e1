import CausalEngine.Foundations.Floating
import CausalEngine.Foundations.Grouping
import CausalEngine.Foundations.Rounding
import CausalEngine.Api.Verdict

/-! What the gateway reads off instant queries: sums per workload and per pod, and the service map. `parseFloat` reads
the text of a sample, `NaN` and the infinities included; `round` is the rounding of a sum. -/

namespace CausalEngine.Api

open Foundations

-- a series of an answer; a missing value counts as zero
structure PromSeries where
  metric : OrderedMap String String
  value : Option String

section Readings

variable (round : ℚ → Floating) (parseFloat : String → Option Floating)

def PromSeries.number (s : PromSeries) : Option Floating := s.value.elim (some (.finite 0)) parseFloat

def PromSeries.label (s : PromSeries) (name : String) : String := (s.metric.get? name).getD ""

structure Reading where
  ns : String
  pod : String
  value : Floating

def readingOf (s : PromSeries) : Option Reading :=
  if s.label "namespace" = "" ∨ s.label "pod" = "" then none
  else (s.number parseFloat).map fun v => ⟨s.label "namespace", s.label "pod", v⟩

def accumulate {β : Type} (v : β → Floating) (o : Option Floating) (x : β) : Floating :=
  Floating.add round (o.getD (.finite 0)) (v x)

def promSums (name : String → String) (reply : Option (List PromSeries)) : OrderedMap (String × String) Floating :=
  reply.elim .empty fun result => groupInto (fun s => (s.ns, name s.pod)) (accumulate round Reading.value) .empty
    (result.filterMap (readingOf parseFloat))

def promMap (reply : Option (List PromSeries)) : OrderedMap (String × String) Floating :=
  promSums round parseFloat workload reply

def promPodMap (reply : Option (List PromSeries)) : OrderedMap (String × String) Floating :=
  promSums round parseFloat id reply

end Readings

section Sums

variable {parseFloat : String → Option Floating} {name : String → String} {reply : Option (List PromSeries)}

def readings (parseFloat : String → Option Floating) (reply : Option (List PromSeries)) : List Reading :=
  (reply.getD []).filterMap (readingOf parseFloat)

lemma promSums_eq (round : ℚ → Floating) : promSums round parseFloat name reply =
    groupInto (fun s => (s.ns, name s.pod)) (accumulate round Reading.value) .empty (readings parseFloat reply) := by
  cases reply <;> rfl

lemma promSums_exact : promSums .finite parseFloat name reply =
    groupInto (fun s => (s.ns, name s.pod)) (addTo Reading.value) .empty (readings parseFloat reply) := promSums_eq _

lemma get?_promSums (k : String × String) : (promSums .finite parseFloat name reply).get? k =
    if ∃ s ∈ readings parseFloat reply, (s.ns, name s.pod) = k
      then some (((readings parseFloat reply).filter fun s => (s.ns, name s.pod) = k).map Reading.value).sum
      else none := by
  rw [promSums_exact, get?_sums]

lemma promSums_total : (promSums .finite parseFloat name reply).values.sum =
    ((readings parseFloat reply).map Reading.value).sum := by
  have hsum := sum_sums (fun s : Reading => (s.ns, name s.pod)) Reading.value (fun _ => true) .empty
    (readings parseFloat reply)
  rw [promSums_exact, OrderedMap.values]
  simpa using hsum

lemma workload_listed (ns wl : String) : (∃ s ∈ readings parseFloat reply, (s.ns, workload s.pod) = (ns, wl)) ↔
    ∃ k ∈ (promPodMap .finite parseFloat reply).keys, k.1 = ns ∧ workload k.2 = wl := by
  rw [promPodMap, promSums_exact]
  simp only [mem_keys_group, id_eq, Prod.mk.injEq]
  constructor
  · rintro ⟨s, hs, rfl, rfl⟩
    exact ⟨(s.ns, s.pod), ⟨s, hs, rfl⟩, rfl, rfl⟩
  · rintro ⟨k, ⟨s, hs, rfl⟩, rfl, rfl⟩
    exact ⟨s, hs, rfl, rfl⟩

lemma pods_of_workload (ns wl : String) :
    (((promPodMap .finite parseFloat reply).entries.filter fun e => e.1.1 = ns ∧ workload e.1.2 = wl).map
      Prod.snd).sum =
    (((readings parseFloat reply).filter fun s => (s.ns, workload s.pod) = (ns, wl)).map Reading.value).sum := by
  have hpods := sum_sums (fun s : Reading => (s.ns, s.pod)) Reading.value
    (fun k => k.1 = ns ∧ workload k.2 = wl) .empty (readings parseFloat reply)
  have hsame : ((readings parseFloat reply).filter fun s => decide (s.ns = ns ∧ workload s.pod = wl)) =
      (readings parseFloat reply).filter fun s => (s.ns, workload s.pod) = (ns, wl) := by
    apply List.filter_congr
    intro s _
    rw [decide_eq_decide, Prod.mk.injEq]
  rw [hsame] at hpods
  simp only [OrderedMap.entries_empty, List.filter_nil, List.map_nil, List.sum_nil, zero_add] at hpods
  rw [promPodMap, promSums_exact]
  exact hpods

/-- The workloads of the recommendations and the pods of the resource view are two views of one query: a workload is
listed where one of its pods is and, as long as sums are exact, its number is the sum of its pods' numbers and both
views have the same total. What is not a number, and an infinity, goes into the sums. -/
theorem workload_sums_of_pods (parseFloat : String → Option Floating) (reply : Option (List PromSeries))
    (ns wl : String) :
    ((promMap .finite parseFloat reply).get? (ns, wl) =
      if ∃ k ∈ (promPodMap .finite parseFloat reply).keys, k.1 = ns ∧ workload k.2 = wl
      then some (((promPodMap .finite parseFloat reply).entries.filter fun e => e.1.1 = ns ∧
        workload e.1.2 = wl).map Prod.snd).sum
      else none) ∧
    (promMap .finite parseFloat reply).values.sum = (promPodMap .finite parseFloat reply).values.sum := by
  refine ⟨?_, promSums_total.trans promSums_total.symm⟩
  rw [promMap, get?_promSums]
  simp only [workload_listed, pods_of_workload]

end Sums

section Caretta

variable (parseFloat : String → Option Floating) (nsPrefix : String)

structure Flow where
  src : String
  dst : String
  srcNs : String
  dstNs : String
  port : Option String
  bytes : Floating

structure Link where
  src : String
  dst : String
  srcNs : String
  dstNs : String
  port : Option String
  bytes : ℤ
deriving DecidableEq

-- `round` raises on what is not finite
def roundBytes (x : Floating) : Option ℤ := x.rat?.map roundHalfEven

def Flow.linkOf (f : Flow) (b : ℤ) : Link := ⟨f.src, f.dst, f.srcNs, f.dstNs, f.port, b⟩

def Flow.pair (f : Flow) : String × String := (f.src, f.dst)

def Link.pair (e : Link) : String × String := (e.src, e.dst)

def flowOf (s : PromSeries) : Option Flow :=
  let cn := s.label "client_name"
  let sn := s.label "server_name"
  let cns := s.label "client_namespace"
  let sns := s.label "server_namespace"
  if cn = "" ∨ sn = "" ∨ cn = sn then none
  else if nsPrefix.toList.isPrefixOf cns.toList ∧ nsPrefix.toList.isPrefixOf sns.toList then
    some ⟨cn, sn, cns, sns, s.metric.get? "server_port", (s.number parseFloat).getD (.finite 0)⟩
  else none

def flows (result : List PromSeries) : List Flow := result.filterMap (flowOf parseFloat nsPrefix)

abbrev Best : Type := OrderedMap (String × String) Link

/-- A later flow of a pair is compared with the rounded count of the best one so far. -/
def keepFlow (best : Best) (f : Flow) : Option Best :=
  if ∀ e ∈ best.get? f.pair, Floating.finite e.bytes < f.bytes
  then (roundBytes f.bytes).map fun b => best.set f.pair (f.linkOf b)
  else some best

def parseCaretta (result : List PromSeries) : Option (List Link) :=
  ((flows parseFloat nsPrefix result).foldlM keepFlow .empty).map fun best =>
    best.values.insertionSort fun a b => b.bytes ≤ a.bytes

structure Busiest (fs : List Flow) (links : List Link) : Prop where
  pairs : (links.map Link.pair).Nodup
  order : links.Pairwise fun a b => b.bytes ≤ a.bytes
  covers : ∀ f ∈ fs, ∃ e ∈ links, e.pair = f.pair
  ends : ∀ e ∈ links, e.src ≠ "" ∧ e.dst ≠ "" ∧ e.src ≠ e.dst ∧
    nsPrefix.toList <+: e.srcNs.toList ∧ nsPrefix.toList <+: e.dstNs.toList
  reached : ∀ e ∈ links, ∃ f ∈ fs, roundBytes f.bytes = some e.bytes ∧ e = f.linkOf e.bytes
  highest : ∀ e ∈ links, ∀ f ∈ fs, f.pair = e.pair → ∀ b, roundBytes f.bytes = some b → b ≤ e.bytes

variable {parseFloat nsPrefix} {result : List PromSeries} {best best' : Best} {f : Flow} {fs : List Flow}

lemma round_idem (w : ℚ) : ((roundHalfEven ((roundHalfEven w : ℤ) : ℚ) : ℤ) : ℚ) = roundHalfEven w := by
  have hle := roundHalfEven_le (le_refl ((roundHalfEven w : ℤ) : ℚ))
  have hge := le_roundHalfEven (le_refl ((roundHalfEven w : ℤ) : ℚ))
  rw [le_antisymm hle hge]

lemma round_mono : Monotone fun w : ℚ => ((roundHalfEven w : ℤ) : ℚ) := by
  intro v w hvw
  exact Int.cast_le.mpr (roundHalfEven_mono hvw)

section Finite

def Flow.counted (f : Flow) : Option (Flow × ℚ) := f.bytes.rat?.map (f, ·)

def countedLink (x : Flow × ℚ) : Link := x.1.linkOf (roundHalfEven x.2)

def busier : Option Link → Flow × ℚ → Link := beat countedLink (fun e => (e.bytes : ℚ)) Prod.snd

lemma keepFlow_finite {q : ℚ} (h : f.bytes = .finite q) :
    keepFlow best f = some (best.set f.pair (busier (best.get? f.pair) (f, q))) := by
  rw [keepFlow, h, busier, beat]
  cases hget : best.get? f.pair with
  | none => rw [if_pos (by simp)]; rfl
  | some e =>
    simp only [Option.mem_def, Option.some.injEq, forall_eq', Floating.finite_lt_iff, Option.elim_some]
    split_ifs
    · rfl
    · rw [OrderedMap.set_same hget]

lemma keepFlow_infinite (h : f.bytes.rat? = none) : keepFlow best f =
    if f.pair ∉ best.keys ∨ f.bytes = .inf false then none else some best := by
  have hbeats : (∀ e ∈ best.get? f.pair, Floating.finite e.bytes < f.bytes) ↔
      f.pair ∉ best.keys ∨ f.bytes = .inf false := by
    rw [← OrderedMap.get?_eq_none]
    cases best.get? f.pair <;> simp [Floating.finite_lt_of_rat? h]
  simp only [keepFlow, roundBytes, h, Option.map_none, hbeats]

lemma keepFlow_counted (h : keepFlow best f = some best') :
    best' = groupInto (fun x => x.1.pair) busier best f.counted.toList := by
  cases hf : f.bytes.rat? with
  | none =>
    rw [keepFlow_infinite hf] at h
    split_ifs at h
    rw [Flow.counted, hf]
    exact (Option.some.inj h).symm
  | some q =>
    rw [keepFlow_finite (Floating.rat?_eq_some.mp hf)] at h
    rw [Flow.counted, hf]
    exact (Option.some.inj h).symm

lemma foldlM_counted (h : fs.foldlM keepFlow best = some best') :
    best' = groupInto (fun x => x.1.pair) busier best (fs.filterMap Flow.counted) := by
  induction fs generalizing best with
  | nil => exact (Option.some.inj h).symm
  | cons f fs ih =>
    rw [List.foldlM_cons] at h
    obtain ⟨mid, hmid, hrest⟩ := Option.bind_eq_some_iff.mp h
    rw [ih hrest, keepFlow_counted hmid]
    cases hf : f.counted with
    | none => rw [List.filterMap_cons_none hf]; rfl
    | some x => rw [List.filterMap_cons_some hf]; rfl

lemma keepFlow_keys (h : keepFlow best f = some best') (k : String × String) :
    k ∈ best'.keys ↔ k ∈ best.keys ∨ f.pair = k := by
  cases hf : f.bytes.rat? with
  | none =>
    rw [keepFlow_infinite hf] at h
    split_ifs at h with hstop
    rw [not_or, not_not] at hstop
    rw [← Option.some.inj h]
    exact ⟨Or.inl, fun hk => hk.elim id fun hk => hk ▸ hstop.1⟩
  | some q =>
    rw [keepFlow_counted h, Flow.counted, hf]
    simp [mem_keys_groupInto]

lemma foldlM_keys (h : fs.foldlM keepFlow best = some best') (k : String × String) :
    k ∈ best'.keys ↔ k ∈ best.keys ∨ ∃ f ∈ fs, f.pair = k := by
  induction fs generalizing best with
  | nil =>
    obtain rfl := Option.some.inj h
    simp
  | cons f fs ih =>
    rw [List.foldlM_cons] at h
    obtain ⟨mid, hmid, hrest⟩ := Option.bind_eq_some_iff.mp h
    rw [ih hrest, keepFlow_keys hmid, List.exists_mem_cons_iff, or_assoc]

end Finite

section Stops

/-- The loop stops at a flow without a finite count that is the first of its pair, or infinite. -/
def Stops (fs : List Flow) : Prop := ∃ before f after, fs = before ++ f :: after ∧ f.bytes.rat? = none ∧
  ((∀ g ∈ before, g.pair ≠ f.pair) ∨ f.bytes = .inf false)

lemma keepFlow_eq_none (hfresh : ∀ k, k ∈ best.keys ↔ ∃ g ∈ fs, g.pair = k) : keepFlow best f = none ↔
    f.bytes.rat? = none ∧ ((∀ g ∈ fs, g.pair ≠ f.pair) ∨ f.bytes = .inf false) := by
  cases hf : f.bytes.rat? with
  | none =>
    have hnew : f.pair ∉ best.keys ↔ ∀ g ∈ fs, g.pair ≠ f.pair := by
      rw [hfresh]
      push Not
      rfl
    rw [keepFlow_infinite hf, ← hnew, ite_eq_left_iff]
    simp [imp_iff_not_or]
  | some q => simp [keepFlow_finite (Floating.rat?_eq_some.mp hf)]

lemma foldlM_eq_none : fs.foldlM keepFlow .empty = none ↔ Stops fs := by
  induction fs using List.reverseRecOn with
  | nil => simp [Stops]
  | append_singleton fs f ih =>
    rw [List.foldlM_append]
    cases hrun : fs.foldlM keepFlow .empty with
    | none =>
      obtain ⟨before, g, after, rfl, hg⟩ := ih.mp hrun
      exact iff_of_true rfl ⟨before, g, after ++ [f], by simp, hg⟩
    | some best =>
      have hgo : ¬ Stops fs := fun hs => by simp [ih.mpr hs] at hrun
      have hstep : keepFlow best f = none ↔ f.bytes.rat? = none ∧ ((∀ g ∈ fs, g.pair ≠ f.pair) ∨
          f.bytes = .inf false) := keepFlow_eq_none fun k => by simp [foldlM_keys hrun]
      have hlast : (some best >>= fun best => [f].foldlM keepFlow best) = none ↔ keepFlow best f = none := by
        simp
      rw [hlast, hstep]
      constructor
      · intro hf
        exact ⟨fs, f, [], rfl, hf⟩
      · rintro ⟨before, g, after, hsplit, hg⟩
        rcases List.eq_nil_or_concat after with rfl | ⟨after, x, rfl⟩
        · obtain ⟨rfl, heq⟩ := List.append_inj' hsplit rfl
          obtain rfl := List.singleton_inj.mp heq
          exact hg
        · rw [List.concat_eq_append, ← List.cons_append, ← List.append_assoc] at hsplit
          obtain ⟨rfl, -⟩ := List.append_inj' hsplit rfl
          exact absurd ⟨before, g, after, rfl, hg⟩ hgo

end Stops

section Map

lemma roundBytes_counted {b : ℤ} : roundBytes f.bytes = some b ↔
    ∃ q, f.counted = some (f, q) ∧ roundHalfEven q = b := by
  simp only [roundBytes, Flow.counted, Option.map_eq_some_iff, Prod.mk.injEq, true_and]
  constructor
  · rintro ⟨q, hq, hb⟩
    exact ⟨q, ⟨q, hq, rfl⟩, hb⟩
  · rintro ⟨q, ⟨r, hr, rfl⟩, hb⟩
    exact ⟨r, hr, hb⟩

lemma counted_some {x : Flow × ℚ} (h : x ∈ fs.filterMap Flow.counted) :
    x.1 ∈ fs ∧ x.1.counted = some x := by
  obtain ⟨f, hf, hx⟩ := List.mem_filterMap.mp h
  obtain ⟨q, -, rfl⟩ := Option.map_eq_some_iff.mp hx
  exact ⟨hf, hx⟩

lemma best_of_pair {k : String × String} {e : Link} (h : fs.foldlM keepFlow .empty = some best)
    (hk : best.get? k = some e) : (∃ f ∈ fs, f.pair = k ∧ roundBytes f.bytes = some e.bytes ∧ e = f.linkOf e.bytes) ∧
      ∀ f ∈ fs, f.pair = k → ∀ b, roundBytes f.bytes = some b → b ≤ e.bytes := by
  rw [foldlM_counted h, get?_groupInto, OrderedMap.get?_empty] at hk
  obtain ⟨⟨x, hx, rfl⟩, hmax⟩ := beat_spec countedLink (fun e => (e.bytes : ℚ)) Prod.snd (fun _ => rfl) round_mono
    round_idem _ hk
  obtain ⟨hx, hpair⟩ := List.mem_filter.mp hx
  obtain ⟨hmem, hcounted⟩ := counted_some hx
  refine ⟨⟨x.1, hmem, of_decide_eq_true hpair, roundBytes_counted.mpr ⟨x.2, hcounted, rfl⟩, rfl⟩, ?_⟩
  intro f hf hfk b hb
  obtain ⟨q, hq, rfl⟩ := roundBytes_counted.mp hb
  exact_mod_cast hmax (f, q) (List.mem_filter.mpr ⟨List.mem_filterMap.mpr ⟨f, hf, hq⟩, by simpa using hfk⟩)

lemma flow_spec (h : f ∈ flows parseFloat nsPrefix result) : f.src ≠ "" ∧ f.dst ≠ "" ∧ f.src ≠ f.dst ∧
    nsPrefix.toList <+: f.srcNs.toList ∧ nsPrefix.toList <+: f.dstNs.toList := by
  obtain ⟨s, -, hs⟩ := List.mem_filterMap.mp h
  simp only [flowOf] at hs
  split_ifs at hs with hnames hscope
  obtain rfl := Option.some.inj hs
  rw [not_or, not_or] at hnames
  exact ⟨hnames.1, hnames.2.1, hnames.2.2, List.isPrefixOf_iff_prefix.mp hscope.1,
    List.isPrefixOf_iff_prefix.mp hscope.2⟩

lemma busiest_flows (h : (flows parseFloat nsPrefix result).foldlM keepFlow .empty = some best) :
    Busiest nsPrefix (flows parseFloat nsPrefix result)
      (best.values.insertionSort fun a b => b.bytes ≤ a.bytes) := by
  have hmem : ∀ e, e ∈ best.values.insertionSort (fun a b => b.bytes ≤ a.bytes) ↔ ∃ k, best.get? k = some e := by
    intro e
    rw [List.mem_insertionSort, OrderedMap.values, List.mem_map]
    constructor
    · rintro ⟨⟨k, e⟩, he, rfl⟩
      exact ⟨k, (OrderedMap.get?_eq_some _ k e).mpr he⟩
    · rintro ⟨k, he⟩
      exact ⟨(k, e), (OrderedMap.get?_eq_some _ k e).mp he, rfl⟩
  have hpair : ∀ k e, best.get? k = some e → e.pair = k := by
    intro k e he
    obtain ⟨f, -, rfl, -, hlink⟩ := (best_of_pair h he).1
    rw [hlink]
    rfl
  refine ⟨?_, List.pairwise_insertionSort _ _, ?_, ?_, ?_, ?_⟩
  · have hperm := (List.perm_insertionSort (fun a b : Link => b.bytes ≤ a.bytes) best.values).map Link.pair
    rw [hperm.nodup_iff, OrderedMap.values, List.map_map]
    refine (List.map_congr_left fun e he => ?_).symm ▸ OrderedMap.keys_nodup best
    exact hpair e.1 e.2 ((OrderedMap.get?_eq_some _ e.1 e.2).mpr he)
  · intro f hf
    obtain ⟨e, he⟩ := (OrderedMap.mem_keys best f.pair).mp ((foldlM_keys h f.pair).mpr (Or.inr ⟨f, hf, rfl⟩))
    exact ⟨e, (hmem e).mpr ⟨_, he⟩, hpair _ _ he⟩
  · intro e he
    obtain ⟨k, hk⟩ := (hmem e).mp he
    obtain ⟨f, hf, -, -, hlink⟩ := (best_of_pair h hk).1
    rw [hlink]
    exact flow_spec hf
  · intro e he
    obtain ⟨k, hk⟩ := (hmem e).mp he
    obtain ⟨f, hf, -, hbytes, hlink⟩ := (best_of_pair h hk).1
    exact ⟨f, hf, hbytes, hlink⟩
  · intro e he f hf hfe
    obtain ⟨k, hk⟩ := (hmem e).mp he
    exact (best_of_pair h hk).2 f hf (hfe.trans (hpair k e hk))

end Map

/-- The service map cannot be made where the first count of a pair is not finite, or any is infinite. Otherwise it has
one edge for each pair of workloads of the factory that talk, none from a workload to itself, the busiest first, and
with the largest finite count that any series of the pair has. -/
theorem topology_best (parseFloat : String → Option Floating) (nsPrefix : String) (result : List PromSeries) :
    (parseCaretta parseFloat nsPrefix result = none ↔ Stops (flows parseFloat nsPrefix result)) ∧
    ∀ links ∈ parseCaretta parseFloat nsPrefix result,
      Busiest nsPrefix (flows parseFloat nsPrefix result) links := by
  refine ⟨Option.map_eq_none_iff.trans foldlM_eq_none, ?_⟩
  intro links hlinks
  obtain ⟨best, hbest, rfl⟩ := Option.map_eq_some_iff.mp hlinks
  exact busiest_flows hbest

end Caretta

end CausalEngine.Api
