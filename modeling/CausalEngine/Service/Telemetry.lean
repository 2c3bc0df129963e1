import CausalEngine.Aggregator.Alerts
import CausalEngine.Service.SharedNames

/-! From the metrics server to the engine: the window that the service polls is the ring that the aggregator fills. On
the wire keys are sorted, and of a time stamp the reader keeps the microseconds. -/

namespace CausalEngine.Service

open Foundations Correlation

def wireSample (s : Aggregator.Sample ℚ) : Sample := ⟨some (((s.ts / 1000 : ℤ) : ℚ) / 10 ^ 6), s.value⟩

def wireWindow (ring : Aggregator.Ring ℚ) : Window where
  entries := (ring.data.entries.insertionSort fun a b => a.1 ≤ b.1).map fun e => (e.1, e.2.map wireSample)
  nodup := by
    have hperm := (List.perm_insertionSort (fun a b => a.1 ≤ b.1) ring.data.entries).map Prod.fst
    simpa only [List.map_map, Function.comp_def] using hperm.nodup_iff.mpr ring.data.nodup

section Keys

variable {cfg : ServiceConfig} {ns pod sig : String}

lemma ringKey_parts (hns : '/' ∉ ns.toList) (hpod : '/' ∉ pod.toList) (hsig : '/' ∉ sig.toList) :
    ((Aggregator.ringKey ns pod sig).toList.splitOn '/').map String.ofList = [ns, pod, sig] := by
  rw [Aggregator.ringKey_toList, List.splitOn_append_cons_self, List.splitOn_append_cons_self,
    List.splitOn_eq_singleton hns, List.splitOn_eq_singleton hpod, List.splitOn_eq_singleton hsig]
  simp

lemma filter_ringKey (hns : '/' ∉ ns.toList) (hpod : '/' ∉ pod.toList) (hsig : '/' ∉ sig.toList)
    (adds : List (Aggregator.Sample ℚ)) :
    (adds.filter fun s => Aggregator.ringKey s.ns s.pod s.sig = Aggregator.ringKey ns pod sig) =
      adds.filter fun s => s.IsOf ns pod sig := by
  apply List.filter_congr
  intro s _
  rw [decide_eq_decide]
  constructor
  · exact Aggregator.ringKey_inj hns hpod hsig
  · rintro ⟨rfl, rfl, rfl⟩
    rfl

lemma seriesKey_ringKey (hns : '/' ∉ ns.toList) (hpod : '/' ∉ pod.toList) (hsig : '/' ∉ sig.toList)
    (hw : sig ∈ wanted cfg) : seriesKey cfg (Aggregator.ringKey ns pod sig) = some (sig, pod) := by
  simp only [seriesKey, ringKey_parts hns hpod hsig]
  simp [hw]

lemma ringKey_of_seriesKey {s : Aggregator.Sample ℚ} (hns : '/' ∉ s.ns.toList) (hpod : '/' ∉ s.pod.toList)
    (hsig : '/' ∉ s.sig.toList) (h : seriesKey cfg (Aggregator.ringKey s.ns s.pod s.sig) = some (sig, pod)) :
    s.sig = sig ∧ s.pod = pod := by
  have hw : s.sig ∈ wanted cfg := by
    by_contra hnot
    simp only [seriesKey, ringKey_parts hns hpod hsig] at h
    simp [hnot] at h
  rw [seriesKey_ringKey hns hpod hsig hw] at h
  exact Prod.mk.inj (Option.some.inj h)

end Keys

section Window

variable {cfg : ServiceConfig} {ring : Aggregator.Ring ℚ} {sig pod key : String}

lemma mem_wireWindow {e : String × List Sample} :
    e ∈ (wireWindow ring).entries ↔ ∃ l, ring.data.get? e.1 = some l ∧ e.2 = l.map wireSample := by
  simp only [wireWindow, List.mem_map, List.mem_insertionSort, OrderedMap.get?_eq_some]
  constructor
  · rintro ⟨⟨k, l⟩, hmem, rfl⟩
    exact ⟨l, hmem, rfl⟩
  · rintro ⟨l, hmem, hl⟩
    exact ⟨(e.1, l), hmem, by rw [← hl]⟩

lemma samples_of_wire {e : String × List Sample} (he : e ∈ (wireWindow ring).entries) :
    e.2 = (ring.samples e.1).map wireSample := by
  obtain ⟨l, hl, hmap⟩ := mem_wireWindow.mp he
  rw [hmap, Aggregator.Ring.samples, hl, Option.getD_some]

lemma wire_of_samples (h : ring.samples key ≠ []) :
    (key, (ring.samples key).map wireSample) ∈ (wireWindow ring).entries := by
  cases hl : ring.data.get? key with
  | none => simp [Aggregator.Ring.samples, hl] at h
  | some l => exact mem_wireWindow.mpr ⟨l, hl, by simp [Aggregator.Ring.samples, hl]⟩

lemma points_wire_length (l : List (Aggregator.Sample ℚ)) : (points (l.map wireSample)).length = l.length := by
  simp [points, wireSample, List.filterMap_map, Function.comp_def]

lemma wire_listed (hkey : seriesKey cfg key = some (sig, pod)) (hlong : 12 ≤ (ring.samples key).length) :
    ∃ pts, (raw cfg (wireWindow ring) sig).get? pod = some pts := by
  have hne : ring.samples key ≠ [] := List.ne_nil_of_length_pos (by omega)
  have hseries : seriesOf cfg key ((ring.samples key).map wireSample) =
      some ⟨sig, pod, points ((ring.samples key).map wireSample)⟩ := by
    rw [seriesOf, hkey, Option.bind_some, if_neg (by simpa using hne), if_pos (by rwa [points_wire_length])]
  have hraw : raw cfg (wireWindow ring) sig = .ofList (namedPoints cfg sig (wireWindow ring).entries) := rfl
  rw [← OrderedMap.mem_keys, hraw, OrderedMap.mem_keys_ofList]
  exact List.mem_map_of_mem (f := Prod.fst) (namedPoints_mem (wire_of_samples hne) hseries)

lemma raw_wireWindow (hkey : seriesKey cfg key = some (sig, pod))
    (honly : ∀ k, ring.samples k ≠ [] → seriesKey cfg k = some (sig, pod) → k = key) :
    (raw cfg (wireWindow ring) sig).get? pod =
      if 12 ≤ (ring.samples key).length then some (points ((ring.samples key).map wireSample)) else none := by
  have hown : ∀ pts, (raw cfg (wireWindow ring) sig).get? pod = some pts →
      pts = points ((ring.samples key).map wireSample) ∧ 12 ≤ (ring.samples key).length := by
    intro pts hpts
    obtain ⟨e, he, hk, rfl, hlong⟩ := mem_raw hpts
    rw [samples_of_wire he, points_wire_length] at hlong
    obtain rfl := honly e.1 (List.ne_nil_of_length_pos (by omega)) hk
    exact ⟨by rw [samples_of_wire he], hlong⟩
  split_ifs with hlong
  · obtain ⟨pts, hpts⟩ := wire_listed hkey hlong
    rw [hpts, (hown pts hpts).1]
  · cases hraw : (raw cfg (wireWindow ring) sig).get? pod with
    | none => rfl
    | some pts => exact absurd (hown pts hraw).2 hlong

end Window

section Path

variable {round : ℚ → Floating} {p : Aggregator.Pack ℚ} {ns pod sig : String}

/-- No name has a slash, and what is named like the pod is the pod. -/
structure Unambiguous (ns pod sig : String) (stream : List (Aggregator.Sample ℚ × String)) : Prop where
  names : ∀ s ∈ stream, '/' ∉ s.1.ns.toList ∧ '/' ∉ s.1.pod.toList ∧ '/' ∉ s.1.sig.toList
  own : '/' ∉ ns.toList ∧ '/' ∉ pod.toList ∧ '/' ∉ sig.toList
  only : ∀ s ∈ stream, s.1.pod = pod → s.1.sig = sig → s.1.ns = ns

def lastAccepted (p : Aggregator.Pack ℚ) (stream : List (Aggregator.Sample ℚ × String)) (ns pod sig : String) :
    List (Aggregator.Sample ℚ) :=
  ((stream.map Prod.fst).filter fun s => s.IsOf ns pod sig).rtake p.ring.capN.toInt.toNat

lemma samples_of_has {m : Aggregator.Monitor} {stream : List (Aggregator.Sample ℚ × String)} (h : p.Has round m stream)
    (hu : Unambiguous ns pod sig stream) :
    m.ring.samples (Aggregator.ringKey ns pod sig) = lastAccepted p stream ns pod sig := by
  rw [h.ring, h.capN, lastAccepted, filter_ringKey hu.own.1 hu.own.2.1 hu.own.2.2]

/-- What the engine sees of a pod, after any ticks of the aggregator, is made of the last samples that were accepted of
it, as many as the ring holds, and of nothing else. -/
theorem engine_sees_scrapes (cfg : ServiceConfig) (round : ℚ → Floating) (parseFinite : String → Option ℚ)
    (p : Aggregator.Pack ℚ) (hcap : 0 ≤ p.ring.capN.toInt) (proms : List Aggregator.Prom) (ns pod sig : String)
    (hw : sig ∈ wanted cfg) (hu : Unambiguous ns pod sig (proms.flatMap (p.accepted parseFinite)))
    (events : List Event) :
    ∃ m, proms.foldlM (p.tick round parseFinite) p.monitor = some m ∧
      podVector cfg (wireWindow m.ring) events sig pod =
        if 12 ≤ (lastAccepted p (proms.flatMap (p.accepted parseFinite)) ns pod sig).length then
          toVector cfg (latest cfg (wireWindow m.ring))
            (points ((lastAccepted p (proms.flatMap (p.accepted parseFinite)) ns pod sig).map wireSample))
        else none := by
  obtain ⟨m, hrun, hhas⟩ := Aggregator.has_monitor.ticks parseFinite hcap proms
  rw [List.nil_append] at hhas
  refine ⟨m, hrun, ?_⟩
  have honly : ∀ k, m.ring.samples k ≠ [] → seriesKey cfg k = some (sig, pod) → k = Aggregator.ringKey ns pod sig := by
    intro k hne hk
    rw [hhas.ring] at hne
    obtain ⟨s, hs⟩ := List.exists_mem_of_ne_nil _ hne
    obtain ⟨hs, hkey⟩ := List.mem_filter.mp (List.mem_of_mem_drop hs)
    obtain ⟨t, ht, rfl⟩ := List.mem_map.mp hs
    obtain rfl : Aggregator.ringKey t.1.ns t.1.pod t.1.sig = k := of_decide_eq_true hkey
    obtain ⟨hns, hpod, hsig⟩ := hu.names t ht
    obtain ⟨heq, heq'⟩ := ringKey_of_seriesKey hns hpod hsig hk
    rw [heq, heq', hu.only t ht heq' heq]
  rw [podVector_eq hw, raw_wireWindow (seriesKey_ringKey hu.own.1 hu.own.2.1 hu.own.2.2 hw) honly,
    samples_of_has hhas hu]
  split_ifs <;> rfl

def minute : List Aggregator.Prom := (List.range 14).map fun k : ℕ => fun _ _ =>
  if k = 3 then none
  else some [⟨.ofList [("namespace", "factory-data"), ("pod", "cooling-monitor-1")], some "0.94", 5 * 10 ^ 9 * k, ""⟩]

theorem engine_sees_scrapes_minute : ∃ m,
    minute.foldlM (Aggregator.stallPack.tick Aggregator.overflowing Aggregator.mockFinite)
      Aggregator.stallPack.monitor = some m ∧
      podVector {} (wireWindow m.ring) [] "psi_io" "cooling-monitor-1" = toVector {} (latest {} (wireWindow m.ring))
        (points ([0, 1, 2, 4, 5, 6, 7, 8, 9, 10, 11, 12, 13].map fun k => ⟨some (5 * k), 94 / 100⟩)) := by
  obtain ⟨m, hrun, hvector⟩ := engine_sees_scrapes {} Aggregator.overflowing Aggregator.mockFinite Aggregator.stallPack
    (by decide) minute "factory-data" "cooling-monitor-1" "psi_io" (by decide)
    ⟨by decide +kernel, by decide +kernel, by decide +kernel⟩ []
  have hpoints : points ((lastAccepted Aggregator.stallPack
      (minute.flatMap (Aggregator.stallPack.accepted Aggregator.mockFinite)) "factory-data" "cooling-monitor-1"
        "psi_io").map wireSample) =
      points ([0, 1, 2, 4, 5, 6, 7, 8, 9, 10, 11, 12, 13].map fun k => ⟨some (5 * k), 94 / 100⟩) := by
    decide +kernel
  rw [if_pos (by decide +kernel), hpoints] at hvector
  exact ⟨m, hrun, hvector⟩

end Path

end CausalEngine.Service
