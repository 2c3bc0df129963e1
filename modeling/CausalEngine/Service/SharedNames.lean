import CausalEngine.Service.Window

/-! Pods of one name in several namespaces. A key `ns/pod/signal` is read without its namespace, so of two
series with one pod and one signal the later in the window takes the place of the earlier. -/

namespace CausalEngine.Service

open Foundations Correlation

variable (cfg : ServiceConfig)

def aloneVector (newest : ℚ) (key : String) (samples : List Sample) : Option Vec :=
  (seriesOf cfg key samples).bind fun s => toVector cfg newest s.pts

def podVector (window : Window) (events : List Event) (sig pod : String) : Option Vec :=
  ((buildInputs cfg window events).1.get? sig).bind fun vectors => vectors.get? pod

def namedPoints (sig : String) (entries : List (String × List Sample)) : List (String × Points) :=
  ((entries.filterMap fun e => seriesOf cfg e.1 e.2).filter fun s => s.signal = sig).map fun s => (s.pod, s.pts)

variable {cfg} {window window' : Window} {events : List Event} {sig pod key : String} {samples : List Sample}

lemma seriesOf_some {s : Series} (h : seriesOf cfg key samples = some s) :
    seriesKey cfg key = some (s.signal, s.pod) ∧ s.pts = points samples ∧ 12 ≤ (points samples).length := by
  obtain ⟨k, hk, h⟩ := Option.bind_eq_some_iff.mp h
  split_ifs at h with hnil hlen
  obtain rfl := Option.some.inj h
  exact ⟨hk, rfl, hlen⟩

lemma wanted_of_seriesKey (h : seriesKey cfg key = some (sig, pod)) : sig ∈ wanted cfg := by
  simp only [seriesKey] at h
  split_ifs at h with hc
  obtain ⟨rfl, -⟩ := Prod.mk.inj (Option.some.inj h)
  exact not_not.mp (not_or.mp hc).2

lemma podVector_eq (h : sig ∈ wanted cfg) : podVector cfg window events sig pod =
    ((raw cfg window sig).get? pod).bind (toVector cfg (latest cfg window)) := by
  rw [podVector, vectors_of_wanted h, Option.bind_some, toVectors, OrderedMap.get?_filterMapVals]

lemma mem_namedPoints {entries : List (String × List Sample)} {pts : Points}
    (h : (pod, pts) ∈ namedPoints cfg sig entries) :
    ∃ e ∈ entries, seriesKey cfg e.1 = some (sig, pod) ∧ pts = points e.2 := by
  obtain ⟨s, hs, heq⟩ := List.mem_map.mp h
  obtain ⟨rfl, rfl⟩ := Prod.mk.inj heq
  obtain ⟨hs, hsig⟩ := List.mem_filter.mp hs
  obtain ⟨e, he, hseries⟩ := List.mem_filterMap.mp hs
  obtain ⟨hkey, hpts, -⟩ := seriesOf_some hseries
  obtain rfl : s.signal = sig := of_decide_eq_true hsig
  exact ⟨e, he, hkey, hpts⟩

lemma namedPoints_mem {entries : List (String × List Sample)} {e : String × List Sample} {s : Series}
    (he : e ∈ entries) (hs : seriesOf cfg e.1 e.2 = some s) : (s.pod, s.pts) ∈ namedPoints cfg s.signal entries :=
  List.mem_map.mpr ⟨s, List.mem_filter.mpr ⟨List.mem_filterMap.mpr ⟨e, he, hs⟩, by simp⟩, rfl⟩

lemma raw_get?_split {before after : List (String × List Sample)} {s : Series}
    (hentries : window.entries = before ++ (key, samples) :: after) (hs : seriesOf cfg key samples = some s) :
    (raw cfg window s.signal).get? s.pod =
      ((OrderedMap.ofList (namedPoints cfg s.signal after)).get? s.pod).or (some s.pts) := by
  have hsplit : namedPoints cfg s.signal window.entries =
      (namedPoints cfg s.signal before ++ [(s.pod, s.pts)]) ++ namedPoints cfg s.signal after := by
    simp [namedPoints, hentries, List.filterMap_append, hs]
  have hraw : raw cfg window s.signal = .ofList (namedPoints cfg s.signal window.entries) := rfl
  have hone : (OrderedMap.ofList [(s.pod, s.pts)]).get? s.pod = some s.pts := by
    rw [OrderedMap.get?_eq_some, OrderedMap.entries_ofList (by simp)]
    exact List.mem_singleton_self _
  rw [hraw, hsplit, OrderedMap.get?_ofList_append, OrderedMap.get?_ofList_append, hone]
  rfl

section Latest

lemma foldl_max_le {l : List ℚ} {a c : ℚ} : l.foldl max a ≤ c ↔ a ≤ c ∧ ∀ v ∈ l, v ≤ c := by
  induction l generalizing a with
  | nil => simp
  | cons b l ih => simp [ih, and_assoc]

lemma latest_le {c : ℚ} : latest cfg window ≤ c ↔
    0 ≤ c ∧ ∀ e ∈ window.entries, ∀ s, seriesOf cfg e.1 e.2 = some s → lastTime s.pts ≤ c := by
  rw [latest, foldl_max_le]
  apply and_congr_right
  intro _
  simp only [seriesList, List.mem_map, List.mem_filterMap]
  constructor
  · exact fun h e he s hs => h _ ⟨s, ⟨e, he, hs⟩, rfl⟩
  · rintro h _ ⟨s, ⟨e, he, hs⟩, rfl⟩
    exact h e he s hs

end Latest

section Crowd

def crowd (t : ℚ) : List Sample := List.replicate 12 ⟨some t, 0⟩

lemma mem_crowd {t : ℚ} {p : ℚ × ℚ} (h : p ∈ points (crowd t)) : p = (t, 0) := by
  obtain ⟨s, hs, hp⟩ := List.mem_filterMap.mp ((List.mem_insertionSort _).mp h)
  obtain rfl := List.eq_of_mem_replicate hs
  exact (Option.some.inj hp).symm

lemma crowd_length (t : ℚ) : (points (crowd t)).length = 12 := by
  rw [points, List.length_insertionSort]
  rfl

lemma crowd_ne_nil (t : ℚ) : points (crowd t) ≠ [] :=
  List.ne_nil_of_length_pos (by rw [crowd_length]; norm_num)

lemma crowd_last (t : ℚ) : lastTime (points (crowd t)) = t := by
  rw [lastTime, List.getLastD_eq_getLast?, List.getLast?_eq_some_getLast (crowd_ne_nil t), Option.getD_some,
    mem_crowd (List.getLast_mem (crowd_ne_nil t))]

lemma seriesOf_crowd (t : ℚ) (h : seriesKey cfg key = some (sig, pod)) :
    seriesOf cfg key (crowd t) = some ⟨sig, pod, points (crowd t)⟩ := by
  have hne : crowd t ≠ [] := by simp [crowd]
  rw [seriesOf, h, Option.bind_some, if_neg hne, if_pos (crowd_length t).ge]

lemma crowd_column (t g : ℚ) : (((lastBefore (g + cfg.gridStepS / 2) (points (crowd t))).or
    (points (crowd t)).head?).bind fun p => if |p.1 - g| ≤ cfg.gridStepS then some p.2 else none) =
      if |t - g| ≤ cfg.gridStepS then some 0 else none := by
  have hmem : ∀ p, (lastBefore (g + cfg.gridStepS / 2) (points (crowd t))).or (points (crowd t)).head? = some p →
      p = (t, 0) := by
    intro p hp
    rcases Option.or_eq_some_iff.mp hp with hp | ⟨-, hp⟩
    · exact mem_crowd (List.mem_of_mem_filter (List.mem_of_getLast? hp))
    · exact mem_crowd (List.mem_of_head? hp)
  cases hl : (lastBefore (g + cfg.gridStepS / 2) (points (crowd t))).or (points (crowd t)).head? with
  | none => simp [crowd_ne_nil] at hl
  | some p =>
    obtain rfl := hmem p hl
    rfl

lemma near_column {t : ℚ} {k : ℕ} (hk : k < gridLength) :
    |t - (t - cfg.gridStepS * (gridLength - 1 - k))| ≤ cfg.gridStepS ↔ 178 ≤ k := by
  have hstep := cfg.gridStep_pos
  have hk' : (k : ℚ) ≤ 179 := by exact_mod_cast Nat.le_of_lt_succ hk
  have hdist : |t - (t - cfg.gridStepS * (gridLength - 1 - k))| = cfg.gridStepS * (179 - k) := by
    rw [sub_sub_cancel, gridLength]
    push_cast
    rw [abs_of_nonneg (mul_nonneg hstep.le (by linarith))]
    ring
  rw [hdist, mul_le_iff_le_one_right hstep, sub_le_iff_le_add, ← Nat.cast_le (α := ℚ)]
  push_cast
  constructor <;> intro h <;> linarith

lemma toVector_crowd (t : ℚ) : toVector cfg t (points (crowd t)) = none := by
  have hcount : (sampleHold (cfg.gridStepS / 2) cfg.gridStepS (points (crowd t)) (grid cfg t)).countP
      Option.isSome = 2 := by
    rw [sampleHold_cursor (points_sorted _) (crowd_ne_nil t) (grid_sorted t), grid, List.map_map, List.countP_map]
    simp only [Function.comp_def, crowd_column]
    have hpred : ∀ k ∈ List.range gridLength,
        (if |t - (t - cfg.gridStepS * (gridLength - 1 - k))| ≤ cfg.gridStepS then some (0 : ℚ) else none).isSome =
          decide (178 ≤ k) := by
      intro k hk
      simp only [near_column (List.mem_range.mp hk)]
      split_ifs with h <;> simp [h]
    rw [List.countP_congr fun k hk => by rw [hpred k hk]]
    decide
  simp [toVector, hcount]

end Crowd

section Shadowed

variable {before after : List (String × List Sample)} {s : Series}

lemma podVector_kept (hentries : window.entries = before ++ (key, samples) :: after)
    (hs : seriesOf cfg key samples = some s) (hafter : ∀ e ∈ after, seriesKey cfg e.1 ≠ seriesKey cfg key) :
    podVector cfg window events s.signal s.pod = toVector cfg (latest cfg window) s.pts := by
  obtain ⟨hkey, -, -⟩ := seriesOf_some hs
  have hnone : (OrderedMap.ofList (namedPoints cfg s.signal after)).get? s.pod = none := by
    rw [OrderedMap.get?_eq_none, OrderedMap.mem_keys_ofList]
    intro hmem
    obtain ⟨⟨pod, pts⟩, hp, rfl⟩ := List.mem_map.mp hmem
    obtain ⟨e, he, hek, -⟩ := mem_namedPoints hp
    exact hafter e he (hek.trans hkey.symm)
  rw [podVector_eq (wanted_of_seriesKey hkey), raw_get?_split hentries hs, hnone, Option.none_or, Option.bind_some]

lemma podVector_shadowed (hentries : window.entries = before ++ (key, samples) :: after)
    (hs : seriesOf cfg key samples = some s) {e : String × List Sample} (he : e ∈ after)
    (hname : seriesKey cfg e.1 = seriesKey cfg key)
    (hcrowd : ∀ f ∈ after, seriesKey cfg f.1 = seriesKey cfg key → f.2 = crowd (latest cfg window)) :
    podVector cfg window events s.signal s.pod = none := by
  obtain ⟨hkey, -, -⟩ := seriesOf_some hs
  have hlast : (OrderedMap.ofList (namedPoints cfg s.signal after)).get? s.pod =
      some (points (crowd (latest cfg window))) := by
    have hsome : s.pod ∈ (OrderedMap.ofList (namedPoints cfg s.signal after)).keys := by
      rw [OrderedMap.mem_keys_ofList]
      have hse := seriesOf_crowd (latest cfg window) (hname.trans hkey)
      rw [← hcrowd e he hname] at hse
      exact List.mem_map_of_mem (f := Prod.fst) (namedPoints_mem he hse)
    obtain ⟨pts, hpts⟩ := (OrderedMap.mem_keys _ _).mp hsome
    have hmem := OrderedMap.mem_entries_ofList ((OrderedMap.get?_eq_some _ _ _).mp hpts)
    obtain ⟨f, hf, hfk, rfl⟩ := mem_namedPoints hmem
    rw [hpts, hcrowd f hf (hfk.trans hkey.symm)]
  rw [podVector_eq (wanted_of_seriesKey hkey), raw_get?_split hentries hs, hlast, Option.some_or, Option.bind_some,
    toVector_crowd]

def crowdAfter (cfg : ServiceConfig) (key : String) (after : List (String × List Sample)) (window : Window) : Window :=
  window.mapVals fun k v =>
    if k ∈ after.map Prod.fst ∧ seriesKey cfg k = seriesKey cfg key then crowd (latest cfg window) else v

lemma crowdAfter_keys : (crowdAfter cfg key after window).keys = window.keys := OrderedMap.keys_mapVals _ _

lemma latest_crowdAfter {e : String × List Sample} (hentries : window.entries = before ++ (key, samples) :: after)
    (he : e ∈ after) {sig pod : String} (hkey : seriesKey cfg key = some (sig, pod))
    (hname : seriesKey cfg e.1 = seriesKey cfg key) :
    latest cfg (crowdAfter cfg key after window) = latest cfg window := by
  obtain ⟨hzero, hlast⟩ := latest_le.mp (le_refl (latest cfg window))
  apply le_antisymm
  · refine latest_le.mpr ⟨hzero, ?_⟩
    intro f hf s hs
    obtain ⟨⟨k, v⟩, hkv, rfl⟩ := List.mem_map.mp hf
    dsimp only at hs
    split_ifs at hs with hc
    · rw [seriesOf_crowd _ (hc.2.trans hkey)] at hs
      obtain rfl := Option.some.inj hs
      rw [crowd_last]
    · exact hlast _ hkv s hs
  · have hmem : (e.1, crowd (latest cfg window)) ∈ (crowdAfter cfg key after window).entries := by
      refine List.mem_map.mpr ⟨e, by simp [hentries, he], ?_⟩
      exact Prod.ext rfl (if_pos ⟨List.mem_map_of_mem he, hname⟩)
    have hle := (latest_le.mp (le_refl (latest cfg (crowdAfter cfg key after window)))).2 _ hmem _
      (seriesOf_crowd _ (hname.trans hkey))
    dsimp only at hle
    rwa [crowd_last] at hle

lemma crowdAfter_entries (hentries : window.entries = before ++ (key, samples) :: after) :
    ∃ before' after', (crowdAfter cfg key after window).entries = before' ++ (key, samples) :: after' ∧
      after'.map Prod.fst = after.map Prod.fst ∧
      ∀ f ∈ after', seriesKey cfg f.1 = seriesKey cfg key → f.2 = crowd (latest cfg window) := by
  have hnd := window.nodup
  rw [hentries, List.map_append, List.map_cons, List.nodup_append] at hnd
  have hkey : key ∉ after.map Prod.fst := (List.nodup_cons.mp hnd.2.1).1
  let change := fun f : String × List Sample =>
    (f.1, if f.1 ∈ after.map Prod.fst ∧ seriesKey cfg f.1 = seriesKey cfg key then crowd (latest cfg window) else f.2)
  have hentries' : (crowdAfter cfg key after window).entries = window.entries.map change := rfl
  refine ⟨before.map change, after.map change, ?_, ?_, ?_⟩
  · rw [hentries', hentries, List.map_append, List.map_cons]
    simp only [change, hkey, false_and, if_false]
  · rw [List.map_map]
    rfl
  · intro f hf hname
    obtain ⟨g, hg, rfl⟩ := List.mem_map.mp hf
    exact if_pos ⟨List.mem_map_of_mem hg, hname⟩

end Shadowed

lemma split_of_keys {before after : List (String × List Sample)} (hkeys : window'.keys = window.keys)
    (hentries : window.entries = before ++ (key, samples) :: after) (hget : window'.get? key = some samples) :
    ∃ before' after', window'.entries = before' ++ (key, samples) :: after' ∧
      after'.map Prod.fst = after.map Prod.fst := by
  have hmap : window'.entries.map Prod.fst = before.map Prod.fst ++ key :: after.map Prod.fst := by
    rw [← OrderedMap.keys, hkeys, OrderedMap.keys, hentries, List.map_append, List.map_cons]
  obtain ⟨before', rest, hsplit, -, hrest⟩ := List.map_eq_append_iff.mp hmap
  obtain ⟨⟨k, v⟩, after', rfl, rfl, hafter⟩ := List.map_eq_cons_iff.mp hrest
  have hmem : (k, v) ∈ window'.entries := by simp [hsplit]
  obtain rfl := Option.some.inj (((OrderedMap.get?_eq_some window' k v).mpr hmem).symm.trans hget)
  exact ⟨before', after', hsplit, hafter⟩

/-- Whatever the other series of the window are, a series keeps the vector that it has alone, exactly when no
later key names the same pod and signal. -/
theorem series_kept_iff (cfg : ServiceConfig) (window : Window) (events : List Event)
    (before after : List (String × List Sample)) (key sig pod : String) (samples : List Sample) (x : Vec)
    (hentries : window.entries = before ++ (key, samples) :: after) (hkey : seriesKey cfg key = some (sig, pod))
    (hx : aloneVector cfg (latest cfg window) key samples = some x) :
    (∀ window' : Window, window'.keys = window.keys → window'.get? key = some samples →
      latest cfg window' = latest cfg window → podVector cfg window' events sig pod = some x) ↔
        ∀ e ∈ after, seriesKey cfg e.1 ≠ some (sig, pod) := by
  obtain ⟨s, hs, hx⟩ := Option.bind_eq_some_iff.mp hx
  obtain ⟨hkey', -, -⟩ := seriesOf_some hs
  obtain ⟨rfl, rfl⟩ := Prod.mk.inj (Option.some.inj (hkey.symm.trans hkey'))
  constructor
  · intro h e he hname
    have hname' := hname.trans hkey.symm
    obtain ⟨before', after', hsplit, hfst, hcrowd⟩ := @crowdAfter_entries cfg _ _ _ _ _ hentries
    have hlatest := latest_crowdAfter hentries he hkey hname'
    have hget : (crowdAfter cfg key after window).get? key = some samples := by
      rw [OrderedMap.get?_eq_some, hsplit]
      simp
    obtain ⟨e', he', hfst'⟩ : ∃ e' ∈ after', e'.1 = e.1 :=
      List.mem_map.mp (hfst ▸ List.mem_map_of_mem (f := Prod.fst) he)
    have hgone : podVector cfg (crowdAfter cfg key after window) events s.signal s.pod = none :=
      podVector_shadowed hsplit hs he' (hfst' ▸ hname') (by rwa [hlatest])
    rw [h _ crowdAfter_keys hget hlatest] at hgone
    exact Option.some_ne_none x hgone
  · intro h window' hkeys hget hlatest
    obtain ⟨before', after', hsplit, hfst⟩ := split_of_keys hkeys hentries hget
    rw [podVector_kept hsplit hs, hlatest, hx]
    intro e he hname
    obtain ⟨f, hf, hfe⟩ := List.mem_map.mp (hfst ▸ List.mem_map_of_mem (f := Prod.fst) he)
    exact h f hf (hfe ▸ hname.trans hkey)

def series (key : String) (value : ℚ) : String × List Sample :=
  (key, (List.range 12).map fun k : ℕ => ⟨some (940 + 5 * k), value⟩)

theorem series_kept_iff_apart :
    podVector {} (.ofList [series "factory-core/db-0/psi_io" 1, series "factory-data/db-1/psi_io" 0]) [] "psi_io"
        "db-0" =
      aloneVector {} 995 "factory-core/db-0/psi_io" (series "factory-core/db-0/psi_io" 1).2 := by
  have hentries :
      (OrderedMap.ofList [series "factory-core/db-0/psi_io" 1, series "factory-data/db-1/psi_io" 0]).entries =
        [series "factory-core/db-0/psi_io" 1, series "factory-data/db-1/psi_io" 0] :=
    OrderedMap.entries_ofList (by decide)
  have hlatest :
      latest {} (.ofList [series "factory-core/db-0/psi_io" 1, series "factory-data/db-1/psi_io" 0]) = 995 := by
    decide +kernel
  obtain ⟨x, hx⟩ := Option.isSome_iff_exists.mp (by decide +kernel :
    (aloneVector {} 995 "factory-core/db-0/psi_io" (series "factory-core/db-0/psi_io" 1).2).isSome = true)
  rw [hx]
  refine (series_kept_iff {} _ [] [] [series "factory-data/db-1/psi_io" 0] _ "psi_io" "db-0" _ x hentries (by decide)
    (by rwa [hlatest])).mpr (by decide) _ rfl ?_ rfl
  rw [OrderedMap.get?_eq_some, hentries]
  exact List.mem_cons_self

theorem series_shadowed :
    latest {} (.ofList [series "factory-core/db-0/psi_io" 1]) =
      latest {} (.ofList [series "factory-core/db-0/psi_io" 1, series "factory-data/db-0/psi_io" 0]) ∧
    (podVector {} (.ofList [series "factory-core/db-0/psi_io" 1]) [] "psi_io" "db-0").map (fun x => x.getD 179 0) =
      some 1 ∧
    (podVector {} (.ofList [series "factory-core/db-0/psi_io" 1, series "factory-data/db-0/psi_io" 0]) [] "psi_io"
      "db-0").map (fun x => x.getD 179 0) = some 0 := by
  decide +kernel

end CausalEngine.Service
