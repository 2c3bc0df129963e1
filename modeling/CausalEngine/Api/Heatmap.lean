import CausalEngine.Api.Verdict
import CausalEngine.Foundations.Grouping
import CausalEngine.Service.Telemetry

/-! The live snapshot of the workloads: the hottest signal of each, by the last sample of every series. -/

namespace CausalEngine.Api

open Foundations Service

structure LatestLevel where
  ns : String
  workload : String
  signal : String
  value : ℚ

structure PodRow where
  workload : String
  ns : String
  signal : String
  value : ℚ
  anomalous : Bool

section Rows

variable (signals flagged : List String)

def levelOf (key : String) (samples : List Sample) : Option LatestLevel :=
  let parts := (key.toList.splitOn '/').map String.ofList
  if parts.length < 3 ∨ parts.getLastD "" ∉ signals then none
  else samples.getLast?.map fun s => ⟨parts.getD 0 "", workload (parts.getD 1 ""), parts.getLastD "", s.value⟩

def levels (window : Window) : List LatestLevel := window.entries.filterMap fun e => levelOf signals e.1 e.2

def LatestLevel.fresh (x : LatestLevel) : PodRow := ⟨x.workload, x.ns, x.signal, 0, false⟩

def PodRow.hotter (row : PodRow) (x : LatestLevel) : PodRow :=
  if row.value ≤ x.value then { row with value := roundTo 4 x.value, signal := x.signal } else row

def PodRow.see (row : Option PodRow) (x : LatestLevel) : PodRow :=
  { (row.getD x.fresh).hotter x with anomalous := decide (x.workload ∈ flagged) }

def pods (window : Window) : List PodRow :=
  (groupInto LatestLevel.workload (PodRow.see flagged) .empty (levels signals window)).values.insertionSort
    fun a b => b.value ≤ a.value

end Rows

section Hottest

variable {signals flagged : List String} {window : Window}

lemma roundTo_idem (n : ℕ) (x : ℚ) : roundTo n (roundTo n x) = roundTo n x := by
  rw [roundTo]
  exact le_antisymm (roundTo_le _ le_rfl) (le_roundTo _ le_rfl)

structure Hottest (l : List LatestLevel) (row : PodRow) : Prop where
  nonneg : 0 ≤ row.value
  rounded : roundTo 4 row.value = row.value
  highest : ∀ x ∈ l, roundTo 4 x.value ≤ row.value
  reached : (∃ x ∈ l, row.signal = x.signal ∧ row.value = roundTo 4 x.value) ∨ row.value = 0 ∧ ∀ x ∈ l, x.value < 0

lemma hottest_fresh (x : LatestLevel) : Hottest [] x.fresh where
  nonneg := le_rfl
  rounded := by simp [LatestLevel.fresh, roundTo, roundHalfEven]
  highest := by simp
  reached := Or.inr ⟨rfl, by simp⟩

lemma Hottest.next {l : List LatestLevel} {row : PodRow} (h : Hottest l row) (x : LatestLevel) :
    Hottest (l ++ [x]) (row.hotter x) := by
  rw [PodRow.hotter]
  split_ifs with hx
  · have hround : row.value ≤ roundTo 4 x.value := by
      rw [← h.rounded]
      exact roundTo_mono 4 hx
    exact {
      nonneg := h.nonneg.trans hround
      rounded := roundTo_idem 4 x.value
      highest := by
        intro y hy
        rcases List.mem_append.mp hy with hy | hy
        · exact (h.highest y hy).trans hround
        · rw [List.mem_singleton.mp hy]
      reached := Or.inl ⟨x, by simp, rfl, rfl⟩ }
  · rw [not_le] at hx
    refine ⟨h.nonneg, h.rounded, ?_, ?_⟩
    · intro y hy
      rcases List.mem_append.mp hy with hy | hy
      · exact h.highest y hy
      · rw [List.mem_singleton.mp hy, ← h.rounded]
        exact roundTo_mono 4 hx.le
    · rcases h.reached with ⟨y, hy, hsig⟩ | ⟨hzero, hcold⟩
      · exact Or.inl ⟨y, List.mem_append_left _ hy, hsig⟩
      · refine Or.inr ⟨hzero, fun y hy => ?_⟩
        rcases List.mem_append.mp hy with hy | hy
        · exact hcold y hy
        · rw [List.mem_singleton.mp hy, ← hzero]
          exact hx

lemma hotter_workload (row : PodRow) (x : LatestLevel) : (row.hotter x).workload = row.workload := by
  rw [PodRow.hotter]
  split_ifs <;> rfl

lemma see_all {w : String} {l : List LatestLevel} (hw : ∀ x ∈ l, x.workload = w) {row : PodRow}
    (h : l.foldl (fun o x => some (PodRow.see flagged o x)) none = some row) :
    row.workload = w ∧ row.anomalous = decide (w ∈ flagged) ∧ Hottest l row := by
  induction l using List.reverseRecOn generalizing row with
  | nil => cases h
  | append_singleton l x ih =>
    rw [List.foldl_append, List.foldl_cons, List.foldl_nil, Option.some.injEq] at h
    have hx : x.workload = w := hw x (by simp)
    obtain ⟨before, hbefore, hprev, hwork⟩ : ∃ before,
        row = { before.hotter x with anomalous := decide (w ∈ flagged) } ∧ Hottest l before ∧ before.workload = w := by
      rw [PodRow.see, hx] at h
      cases hl : l.foldl (fun o x => some (PodRow.see flagged o x)) none with
      | none =>
        rw [hl] at h
        rw [foldl_some_eq_none hl]
        exact ⟨x.fresh, h.symm, hottest_fresh x, hx⟩
      | some before =>
        rw [hl] at h
        obtain ⟨hwork, -, hprev⟩ := ih (fun y hy => hw y (List.mem_append_left _ hy)) hl
        exact ⟨before, h.symm, hprev, hwork⟩
    obtain ⟨hnonneg, hrounded, hhighest, hreached⟩ := hprev.next x
    rw [hbefore]
    exact ⟨(hotter_workload before x).trans hwork, rfl, ⟨hnonneg, hrounded, hhighest, hreached⟩⟩

end Hottest

section Map

variable {signals flagged : List String} {window : Window}

lemma mem_pods {row : PodRow} : row ∈ pods signals flagged window ↔
    ∃ w, (groupInto LatestLevel.workload (PodRow.see flagged) .empty (levels signals window)).get? w = some row := by
  rw [pods, List.mem_insertionSort, OrderedMap.values, List.mem_map]
  constructor
  · rintro ⟨⟨w, row⟩, hrow, rfl⟩
    exact ⟨w, (OrderedMap.get?_eq_some _ w row).mpr hrow⟩
  · rintro ⟨w, hrow⟩
    exact ⟨(w, row), (OrderedMap.get?_eq_some _ w row).mp hrow, rfl⟩

lemma row_spec {w : String} {row : PodRow} (h : (groupInto LatestLevel.workload (PodRow.see flagged) .empty
    (levels signals window)).get? w = some row) : row.workload = w ∧ row.anomalous = decide (w ∈ flagged) ∧
      Hottest ((levels signals window).filter fun x => x.workload = w) row := by
  rw [get?_groupInto, OrderedMap.get?_empty] at h
  exact see_all (fun x hx => of_decide_eq_true (List.mem_filter.mp hx).2) h

end Map

/-- The heat map has every workload with a series once, the hottest first. The level of a workload is the highest of the
last levels of its series, rounded, and the signal is that of a series that has it; a workload is flagged when the
engine has a finding of it. -/
theorem heat_map (signals flagged : List String) (window : Window) :
    ((pods signals flagged window).map PodRow.workload).Nodup ∧
    (pods signals flagged window).Pairwise (fun a b => b.value ≤ a.value) ∧
    (∀ x ∈ levels signals window, ∃ row ∈ pods signals flagged window, row.workload = x.workload) ∧
    ∀ row ∈ pods signals flagged window, (row.anomalous = true ↔ row.workload ∈ flagged) ∧
      Hottest ((levels signals window).filter fun x => x.workload = row.workload) row := by
  refine ⟨?_, ?_, ?_, ?_⟩
  · have hperm := (List.perm_insertionSort (fun a b : PodRow => b.value ≤ a.value) (groupInto LatestLevel.workload
      (PodRow.see flagged) .empty (levels signals window)).values).map PodRow.workload
    rw [pods, hperm.nodup_iff, OrderedMap.values, List.map_map]
    refine (List.map_congr_left fun e he => ?_).symm ▸ OrderedMap.keys_nodup _
    exact (row_spec ((OrderedMap.get?_eq_some _ e.1 e.2).mpr he)).1
  · apply List.pairwise_insertionSort
  · intro x hx
    have hkey := (mem_keys_group (f := PodRow.see flagged) (levels signals window) x.workload).mpr ⟨x, hx, rfl⟩
    obtain ⟨row, hrow⟩ := (OrderedMap.mem_keys _ _).mp hkey
    exact ⟨row, mem_pods.mpr ⟨_, hrow⟩, (row_spec hrow).1⟩
  · intro row hrow
    obtain ⟨w, hw⟩ := mem_pods.mp hrow
    obtain ⟨rfl, hflag, hhot⟩ := row_spec hw
    exact ⟨by simp [hflag], hhot⟩

section Scrapes

variable {signals : List String} {ns pod sig : String} {ring : Aggregator.Ring ℚ}

lemma levelOf_ringKey (hns : '/' ∉ ns.toList) (hpod : '/' ∉ pod.toList) (hsig : '/' ∉ sig.toList)
    (samples : List Sample) : levelOf signals (Aggregator.ringKey ns pod sig) samples =
      if sig ∈ signals then samples.getLast?.map fun s => ⟨ns, workload pod, sig, s.value⟩ else none := by
  simp only [levelOf, ringKey_parts hns hpod hsig]
  by_cases h : sig ∈ signals <;> simp [h]

lemma mem_levels {x : LatestLevel} : x ∈ levels signals (wireWindow ring) ↔
    ∃ k, levelOf signals k ((ring.samples k).map wireSample) = some x := by
  have hempty : ∀ k, levelOf signals k [] = none := fun k => by simp [levelOf]
  rw [levels, List.mem_filterMap]
  constructor
  · rintro ⟨⟨k, samples⟩, he, hx⟩
    obtain ⟨l, hl, hsamples⟩ := mem_wireWindow.mp he
    dsimp only at hl hsamples hx
    refine ⟨k, ?_⟩
    rwa [Aggregator.Ring.samples, hl, Option.getD_some, ← hsamples]
  · rintro ⟨k, hx⟩
    cases hl : ring.data.get? k with
    | none => simp [Aggregator.Ring.samples, hl, hempty] at hx
    | some l =>
      rw [Aggregator.Ring.samples, hl, Option.getD_some] at hx
      exact ⟨(k, l.map wireSample), mem_wireWindow.mpr ⟨l, hl, rfl⟩, hx⟩

lemma getLast?_rtake {α : Type} {l : List α} {n : ℕ} (hn : 0 < n) : (l.rtake n).getLast? = l.getLast? := by
  rw [List.rtake, List.getLast?_drop]
  split_ifs with h
  · obtain rfl : l = [] := List.eq_nil_of_length_eq_zero (by omega)
    rfl
  · rfl

end Scrapes

/-- After any ticks of the aggregator the levels of the heat map are those of the last samples that were accepted, one
for each pod and signal. -/
theorem heat_map_live (signals : List String) (round : ℚ → Floating) (parseFinite : String → Option ℚ)
    (p : Aggregator.Pack ℚ) (hcap : 0 < p.ring.capN.toInt) (proms : List Aggregator.Prom)
    (hnames : ∀ s ∈ proms.flatMap (p.accepted parseFinite), '/' ∉ s.1.ns.toList ∧ '/' ∉ s.1.pod.toList ∧
      '/' ∉ s.1.sig.toList) :
    ∃ m, proms.foldlM (p.tick round parseFinite) p.monitor = some m ∧ ∀ x, x ∈ levels signals (wireWindow m.ring) ↔
      ∃ s ∈ (proms.flatMap (p.accepted parseFinite)).map Prod.fst, s.sig ∈ signals ∧
        s ∈ (((proms.flatMap (p.accepted parseFinite)).map Prod.fst).filter fun t => t.IsOf s.ns s.pod s.sig).getLast? ∧
        x = ⟨s.ns, workload s.pod, s.sig, s.value⟩ := by
  obtain ⟨m, hrun, hhas⟩ := Aggregator.has_monitor.ticks parseFinite hcap.le proms
  rw [List.nil_append] at hhas
  refine ⟨m, hrun, fun x => ?_⟩
  have hlast : ∀ k, (m.ring.samples k).getLast? = (((proms.flatMap (p.accepted parseFinite)).map Prod.fst).filter
      fun t => Aggregator.ringKey t.ns t.pod t.sig = k).getLast? := by
    intro k
    rw [hhas.ring, getLast?_rtake (by rw [hhas.capN]; omega)]
  have hslash : ∀ s ∈ (proms.flatMap (p.accepted parseFinite)).map Prod.fst, '/' ∉ s.ns.toList ∧ '/' ∉ s.pod.toList ∧
      '/' ∉ s.sig.toList := by
    intro s hs
    obtain ⟨t, ht, rfl⟩ := List.mem_map.mp hs
    exact hnames t ht
  have hlevel : ∀ s ∈ (proms.flatMap (p.accepted parseFinite)).map Prod.fst,
      levelOf signals (Aggregator.ringKey s.ns s.pod s.sig)
        ((m.ring.samples (Aggregator.ringKey s.ns s.pod s.sig)).map wireSample) =
      if s.sig ∈ signals then (((proms.flatMap (p.accepted parseFinite)).map Prod.fst).filter
        fun t => t.IsOf s.ns s.pod s.sig).getLast?.map fun t => ⟨s.ns, workload s.pod, s.sig, t.value⟩ else none := by
    intro s hs
    obtain ⟨hns, hpod, hsig⟩ := hslash s hs
    rw [levelOf_ringKey hns hpod hsig, List.getLast?_map, hlast, filter_ringKey hns hpod hsig, Option.map_map]
    rfl
  rw [mem_levels]
  constructor
  · rintro ⟨k, hk⟩
    obtain ⟨s, hs⟩ : ∃ s, (m.ring.samples k).getLast? = some s := by
      cases hget : (m.ring.samples k).getLast? with
      | some s => exact ⟨s, rfl⟩
      | none => simp [levelOf, List.getLast?_eq_none_iff.mp hget] at hk
    rw [hlast] at hs
    obtain ⟨hmem, hkey⟩ := List.mem_filter.mp (List.mem_of_getLast? hs)
    obtain rfl := of_decide_eq_true hkey
    obtain ⟨hns, hpod, hsig⟩ := hslash s hmem
    rw [filter_ringKey hns hpod hsig] at hs
    rw [hlevel s hmem, hs] at hk
    split_ifs at hk with hsignal
    exact ⟨s, hmem, hsignal, hs, (Option.some.inj hk).symm⟩
  · rintro ⟨s, hs, hsig, hget, rfl⟩
    refine ⟨Aggregator.ringKey s.ns s.pod s.sig, ?_⟩
    rw [hlevel s hs, if_pos hsig, hget, Option.map_some]

theorem heat_map_live_minute : ∃ m,
    minute.foldlM (Aggregator.stallPack.tick Aggregator.overflowing Aggregator.mockFinite)
      Aggregator.stallPack.monitor = some m ∧
      ⟨"factory-data", "cooling", "psi_io", 94 / 100⟩ ∈ levels ["psi_io"] (wireWindow m.ring) := by
  obtain ⟨m, hrun, hlevels⟩ := heat_map_live ["psi_io"] Aggregator.overflowing Aggregator.mockFinite
    Aggregator.stallPack (by decide) minute (by decide +kernel)
  refine ⟨m, hrun, (hlevels _).mpr ?_⟩
  have hsame : ∀ s ∈ (minute.flatMap (Aggregator.stallPack.accepted Aggregator.mockFinite)).map Prod.fst,
      s.ns = "factory-data" ∧ s.pod = "cooling-monitor-1" ∧ s.sig = "psi_io" ∧ s.value = 94 / 100 := by
    decide +kernel
  obtain ⟨s, hs⟩ : ∃ s, (((minute.flatMap (Aggregator.stallPack.accepted Aggregator.mockFinite)).map Prod.fst).filter
      fun t => t.IsOf "factory-data" "cooling-monitor-1" "psi_io").getLast? = some s :=
    Option.isSome_iff_exists.mp (by decide +kernel)
  have hmem := (List.mem_filter.mp (List.mem_of_getLast? hs)).1
  obtain ⟨hns, hpod, hsig, hvalue⟩ := hsame s hmem
  refine ⟨s, hmem, by simp [hsig], ?_, ?_⟩
  · rw [hns, hpod, hsig]
    exact hs
  · rw [hns, hpod, hsig, hvalue]
    rfl

end CausalEngine.Api
