import CausalEngine.Aggregator.Pack

/-! The ring of the aggregator: of each series it keeps the last samples, as many as the pack's window holds. A slice
expression that is out of range stops the program and is `none`. -/

namespace CausalEngine.Aggregator

open Foundations

structure Sample (F : Type) where
  ts : ℤ
  pod : String
  ns : String
  sig : String
  value : F

structure Ring (F : Type) where
  data : OrderedMap String (List (Sample F))
  capN : Int64

def ringKey (ns pod sig : String) : String := ns ++ "/" ++ pod ++ "/" ++ sig

def sliceFrom {α : Type} (s : List α) (lo : ℤ) : Option (List α) :=
  if 0 ≤ lo ∧ lo ≤ s.length then some (s.drop lo.toNat) else none

variable {F : Type}

section Operations

variable (r : Ring F)

def Ring.samples (k : String) : List (Sample F) := (r.data.get? k).getD []

def Ring.store (k : String) (l : List (Sample F)) : Ring F := { r with data := r.data.set k l }

def Ring.add (s : Sample F) : Option (Ring F) :=
  let k := ringKey s.ns s.pod s.sig
  let stored := r.samples k ++ [s]
  if r.capN.toInt < stored.length then
    -- The difference is a machine integer and wraps around.
    (sliceFrom stored ((stored.length - r.capN.toInt).bmod (2 ^ 64))).map (r.store k)
  else some (r.store k stored)

def Ring.series (ns pod sig : String) : List F := (r.samples (ringKey ns pod sig)).map Sample.value

def Ring.addAll (adds : List (Sample F)) : Option (Ring F) := adds.foldlM Ring.add r

end Operations

section Main

-- the interval is defaulted, the window is not
def Pack.defaulted (p : Pack F) : Pack F := if p.intervalS ≤ 0 then { p with intervalS := 5 } else p

def Pack.ringCap (p : Pack F) : Int64 := p.windowMin * 60 / p.intervalS

def Pack.ring (p : Pack F) : Ring F := ⟨.empty, p.defaulted.ringCap⟩

end Main

section Keys

def Sample.IsOf (ns pod sig : String) (s : Sample F) : Prop := s.ns = ns ∧ s.pod = pod ∧ s.sig = sig

instance (ns pod sig : String) : DecidablePred (Sample.IsOf ns pod sig (F := F)) := fun s =>
  inferInstanceAs (Decidable (s.ns = ns ∧ s.pod = pod ∧ s.sig = sig))

lemma ringKey_toList (ns pod sig : String) :
    (ringKey ns pod sig).toList = ns.toList ++ '/' :: (pod.toList ++ '/' :: sig.toList) := by
  simp [ringKey]

lemma splitOn_single {s t : Text} (h : s.splitOn '/' = [t]) : s = t := by
  have hjoin : ['/'].intercalate (s.splitOn '/') = s := List.intercalate_splitOn '/'
  rw [h] at hjoin
  simpa using hjoin.symm

lemma ringKey_inj {ns pod sig ns' pod' sig' : String} (hns : '/' ∉ ns.toList) (hpod : '/' ∉ pod.toList)
    (hsig : '/' ∉ sig.toList) (h : ringKey ns' pod' sig' = ringKey ns pod sig) :
    ns' = ns ∧ pod' = pod ∧ sig' = sig := by
  obtain ⟨a, as, ha⟩ := List.exists_cons_of_ne_nil (List.splitOn_ne_nil '/' ns'.toList)
  obtain ⟨b, bs, hb⟩ := List.exists_cons_of_ne_nil (List.splitOn_ne_nil '/' pod'.toList)
  obtain ⟨c, cs, hc⟩ := List.exists_cons_of_ne_nil (List.splitOn_ne_nil '/' sig'.toList)
  have hsplit := congrArg (fun k => k.toList.splitOn '/') h
  simp only [ringKey_toList, List.splitOn_append_cons_self, List.splitOn_eq_singleton hns,
    List.splitOn_eq_singleton hpod, List.splitOn_eq_singleton hsig, ha, hb, hc] at hsplit
  have hlen := congrArg List.length hsplit
  simp only [List.length_append, List.length_cons, List.length_nil] at hlen
  obtain rfl : as = [] := List.eq_nil_of_length_eq_zero (by omega)
  obtain rfl : bs = [] := List.eq_nil_of_length_eq_zero (by omega)
  obtain rfl : cs = [] := List.eq_nil_of_length_eq_zero (by omega)
  simp only [List.cons_append, List.nil_append, List.cons.injEq, and_true] at hsplit
  obtain ⟨rfl, rfl, rfl⟩ := hsplit
  exact ⟨String.toList_inj.mp (splitOn_single ha), String.toList_inj.mp (splitOn_single hb),
    String.toList_inj.mp (splitOn_single hc)⟩

end Keys

section Recent

variable {r : Ring F}

def Ring.Keeps (r : Ring F) (adds : List (Sample F)) : Prop :=
  ∀ k, r.samples k = (adds.filter fun s => ringKey s.ns s.pod s.sig = k).rtake r.capN.toInt.toNat

lemma samples_store (k j : String) (l : List (Sample F)) :
    (r.store k l).samples j = if j = k then l else r.samples j := by
  rw [Ring.store, Ring.samples, OrderedMap.get?_set]
  split_ifs <;> rfl

lemma add_bounded {s : Sample F} (hcap : 0 ≤ r.capN.toInt)
    (hfull : (r.samples (ringKey s.ns s.pod s.sig)).length ≤ r.capN.toInt.toNat) :
    r.add s = some (r.store (ringKey s.ns s.pod s.sig)
      ((r.samples (ringKey s.ns s.pod s.sig) ++ [s]).rtake r.capN.toInt.toNat)) := by
  simp only [Ring.add]
  generalize r.samples (ringKey s.ns s.pod s.sig) = l at hfull ⊢
  have hlen : (l ++ [s]).length = l.length + 1 := by simp
  split_ifs with hover
  · have hone : ((l ++ [s]).length - r.capN.toInt).bmod (2 ^ 64) = 1 := by
      have hdiff : ((l ++ [s]).length - r.capN.toInt : ℤ) = 1 := by omega
      rw [hdiff]
      decide
    have hdrop : (l ++ [s]).rtake r.capN.toInt.toNat = (l ++ [s]).drop 1 := by
      rw [List.rtake]
      congr 1
      omega
    rw [hone, sliceFrom, if_pos (by omega), hdrop]
    rfl
  · rw [rtake_of_length_le (by omega)]

lemma Ring.Keeps.add {adds : List (Sample F)} (h : r.Keeps adds) (hcap : 0 ≤ r.capN.toInt) (s : Sample F) :
    ∃ r', r.add s = some r' ∧ r'.capN = r.capN ∧ r'.Keeps (adds ++ [s]) := by
  refine ⟨_, add_bounded hcap ?_, rfl, ?_⟩
  · rw [h, length_rtake]
    exact min_le_left _ _
  · intro k
    rw [samples_store, List.filter_append]
    split_ifs with hk
    · subst hk
      rw [h, rtake_concat]
      simp [Ring.store]
    · have hother : [s].filter (fun s => ringKey s.ns s.pod s.sig = k) = [] := by
        simpa using fun he => hk he.symm
      rw [hother, List.append_nil]
      exact h k

lemma Ring.Keeps.addAll {before : List (Sample F)} (h : r.Keeps before) (hcap : 0 ≤ r.capN.toInt)
    (adds : List (Sample F)) : ∃ r', r.addAll adds = some r' ∧ r'.capN = r.capN ∧ r'.Keeps (before ++ adds) := by
  induction adds generalizing r before with
  | nil => exact ⟨r, rfl, rfl, by rwa [List.append_nil]⟩
  | cons s adds ih =>
    obtain ⟨r₁, hadd, hcapN, hkeeps⟩ := h.add hcap s
    obtain ⟨r₂, hall, hcapN', hkeeps'⟩ := ih hkeeps (by rwa [hcapN])
    refine ⟨r₂, ?_, hcapN'.trans hcapN, ?_⟩
    · rw [Ring.addAll, List.foldlM_cons, hadd]
      exact hall
    · rwa [List.append_assoc] at hkeeps'

lemma keeps_empty (capN : Int64) : (⟨.empty, capN⟩ : Ring F).Keeps [] := fun k => by simp [Ring.samples]

lemma Ring.Keeps.series {adds : List (Sample F)} (h : r.Keeps adds) {ns pod sig : String} (hns : '/' ∉ ns.toList)
    (hpod : '/' ∉ pod.toList) (hsig : '/' ∉ sig.toList) : r.series ns pod sig =
      ((adds.filter fun s => s.IsOf ns pod sig).map Sample.value).rtake r.capN.toInt.toNat := by
  have hkey : (adds.filter fun s => ringKey s.ns s.pod s.sig = ringKey ns pod sig) =
      adds.filter fun s => s.IsOf ns pod sig := by
    apply List.filter_congr
    intro s _
    rw [decide_eq_decide]
    constructor
    · exact ringKey_inj hns hpod hsig
    · rintro ⟨rfl, rfl, rfl⟩
      rfl
  rw [Ring.series, h, hkey, List.rtake, List.rtake, List.map_drop, List.length_map]

lemma add_negative {s : Sample F} (hcap : r.capN.toInt < 0) (hempty : r.samples (ringKey s.ns s.pod s.sig) = []) :
    r.add s = none := by
  have hle := Int64.le_toInt r.capN
  have hout : ¬ (0 ≤ (1 - r.capN.toInt).bmod (2 ^ 64) ∧ (1 - r.capN.toInt).bmod (2 ^ 64) ≤ 1) := by
    rw [Int.bmod]
    omega
  simp only [Ring.add, hempty, List.nil_append, List.length_singleton, Nat.cast_one]
  rw [if_pos (by omega), sliceFrom, List.length_singleton, Nat.cast_one, if_neg hout]
  rfl

end Recent

section Capacity

variable (p : Pack F)

lemma defaulted_pos : 0 < p.defaulted.intervalS.toInt := by
  rw [Pack.defaulted]
  split_ifs with h
  · exact (by decide : 0 < (5 : Int64).toInt)
  · rw [Int64.le_iff_toInt_le] at h
    exact not_le.mp h

lemma defaulted_windowMin : p.defaulted.windowMin = p.windowMin := by
  rw [Pack.defaulted]
  split_ifs <;> rfl

lemma tdiv_nonneg_iff {a d : ℤ} (hd : 0 < d) : 0 ≤ a.tdiv d ↔ -d < a := by
  rcases le_or_gt 0 a with ha | ha
  · exact iff_of_true (Int.tdiv_nonneg ha hd.le) (by omega)
  · have hquot : a.tdiv d = -(-a / d) := by
      rw [← Int.tdiv_eq_ediv_of_nonneg (by omega), Int.neg_tdiv, neg_neg]
    rw [hquot, Left.nonneg_neg_iff, ← Int.lt_add_one_iff, Int.ediv_lt_iff_lt_mul hd]
    omega

lemma ringCap_nonneg_iff :
    0 ≤ p.ring.capN.toInt ↔ -p.defaulted.intervalS.toInt < (p.windowMin.toInt * 60).bmod (2 ^ 64) := by
  have hpos := defaulted_pos p
  have hne : p.defaulted.intervalS ≠ -1 := by
    intro h
    rw [h] at hpos
    exact absurd hpos (by decide)
  rw [Pack.ring, Pack.ringCap, Int64.toInt_div_of_ne_right _ _ hne, Int64.toInt_mul, defaulted_windowMin,
    tdiv_nonneg_iff hpos]
  rfl

/-- The ring keeps the recent samples unless the window, in seconds, is negative by an interval or more. -/
theorem ring_keeps_recent_iff (adds : List (Sample F)) :
    (∃ r, p.ring.addAll adds = some r ∧ ∀ ns pod sig : String,
      '/' ∉ ns.toList → '/' ∉ pod.toList → '/' ∉ sig.toList → r.series ns pod sig =
        ((adds.filter fun s => s.IsOf ns pod sig).map Sample.value).rtake p.ring.capN.toInt.toNat) ↔
    adds = [] ∨ -p.defaulted.intervalS.toInt < (p.windowMin.toInt * 60).bmod (2 ^ 64) := by
  rw [← ringCap_nonneg_iff]
  constructor
  · rintro ⟨r, hadds, -⟩
    rw [or_iff_not_imp_right, not_le]
    intro hcap
    cases adds with
    | nil => rfl
    | cons s adds =>
      rw [Ring.addAll, List.foldlM_cons, add_negative hcap rfl] at hadds
      exact absurd hadds (by simp)
  · rintro (rfl | hcap)
    · exact ⟨p.ring, rfl, fun ns pod sig hns hpod hsig => (keeps_empty _).series hns hpod hsig⟩
    · obtain ⟨r, hadds, hcapN, hkeeps⟩ := (keeps_empty p.defaulted.ringCap).addAll hcap adds
      refine ⟨r, hadds, fun ns pod sig hns hpod hsig => ?_⟩
      have hseries := hkeeps.series hns hpod hsig
      rwa [hcapN] at hseries

theorem negative_window_crashes : ∃ p : Pack ℚ,
    loadPack (fun _ => none) "interval_s: 5\nwindow_min: -15\n".toList = .ok p ∧
    ¬ ∃ r, p.ring.addAll [⟨0, "relay-0", "factory-data", "cpu", 1⟩] = some r ∧ ∀ ns pod sig : String,
      '/' ∉ ns.toList → '/' ∉ pod.toList → '/' ∉ sig.toList → r.series ns pod sig =
        (([⟨0, "relay-0", "factory-data", "cpu", 1⟩].filter fun s => s.IsOf ns pod sig).map Sample.value).rtake
          p.ring.capN.toInt.toNat := by
  refine ⟨⟨5, -15, .empty, [], .empty⟩, rfl, ?_⟩
  rintro ⟨r, hadds, -⟩
  rw [Ring.addAll, List.foldlM_cons, add_negative (by decide) rfl] at hadds
  exact absurd hadds (by simp)

end Capacity

end CausalEngine.Aggregator
