import CausalEngine.Api.Fairness
import CausalEngine.Api.Topology

/-! The cards of all workloads and the fairness of all namespaces, out of what the instant queries answer. -/

namespace CausalEngine.Api

open Foundations

inductive Query
  | cpuReq | cpuLim | cpuP95 | memReq | memLim | memP95
deriving DecidableEq

inductive Psi
  | io | cpu | memory
deriving DecidableEq

def Query.all : List Query := [.cpuReq, .cpuLim, .cpuP95, .memReq, .memLim, .memP95]

lemma Query.mem_all (q : Query) : q ∈ Query.all := by
  cases q <;> simp [Query.all]

def Psi.all : List Psi := [.io, .cpu, .memory]

def Resource.req : Resource → Query
  | .cpu => .cpuReq
  | .memory => .memReq

def Resource.lim : Resource → Query
  | .cpu => .cpuLim
  | .memory => .memLim

def Resource.p95 : Resource → Query
  | .cpu => .cpuP95
  | .memory => .memP95

structure Replies where
  sizing : Query → Option (List PromSeries)
  stall : Psi → Option (List PromSeries)

abbrev WorkloadMap : Type := OrderedMap (String × String) ℚ

abbrev WorkloadSums : Type := OrderedMap (String × String) Floating

def WorkloadSums.Finite (m : WorkloadSums) : Prop := ∀ x ∈ m.values, x.rat?.isSome

instance (m : WorkloadSums) : Decidable m.Finite := inferInstanceAs (Decidable (∀ x ∈ m.values, x.rat?.isSome))

def WorkloadSums.rationals (m : WorkloadSums) : WorkloadMap := m.mapVals fun _ x => x.rat?.getD 0

structure Advice where
  ns : String
  card : Card
deriving DecidableEq

structure Recommendations where
  rightSizing : List Advice
  fairness : List NamespaceFairness
  available : Bool

section Cards

variable (cfg : SizingConfig) (maps : Query → WorkloadMap)

def listedKeys : List (String × String) :=
  (Query.all.flatMap fun q => (maps q).keys).dedup.insertionSort fun a b => toLex a ≤ toLex b

def adviceFor (k : String × String) (res : Resource) : Option Advice :=
  (rightsize cfg k.2 ((maps res.req).get? k) ((maps res.lim).get? k) ((maps res.p95).get? k) res).map fun c => ⟨k.1, c⟩

def Advice.rank (a : Advice) : ℕ ×ₗ ℚ := toLex (if a.card.verb = .resize then 0 else 1, -(a.card.p95.getD 0))

def unsortedCards : List Advice :=
  (listedKeys maps).flatMap fun k => [Resource.cpu, .memory].filterMap (adviceFor cfg maps k)

def sortedCards : List Advice := (unsortedCards cfg maps).insertionSort fun a b => a.rank ≤ b.rank

end Cards

section Gateway

variable (round : ℚ → Floating) (parseFloat : String → Option Floating) (cfg : SizingConfig) (replies : Replies)

def sizingSums (q : Query) : WorkloadSums := promMap round parseFloat (replies.sizing q)

def totalStall : WorkloadSums := groupInto Prod.fst (accumulate round Prod.snd) .empty
  (Psi.all.flatMap fun psi => (promMap round parseFloat (replies.stall psi)).entries)

/-- Only finite sums are followed any further. -/
def recommendations : Option Recommendations :=
  let sums := sizingSums round parseFloat replies
  let stall := totalStall round parseFloat replies
  if ∀ q ∈ Query.all, (sums q).entries = [] then some ⟨[], [], false⟩
  else if (∀ q ∈ Query.all, (sums q).Finite) ∧ stall.Finite then
    some ⟨sortedCards cfg fun q => (sums q).rationals, fairness stall.rationals, true⟩
  else none

end Gateway

section Contents

variable {cfg : SizingConfig} {maps : Query → WorkloadMap}

lemma rightsize_spec {wl : String} {req lim p95 : Option ℚ} {res : Resource} {c : Card}
    (h : rightsize cfg wl req lim p95 res = some c) :
    c.workload = wl ∧ c.resource = res ∧ c.p95 = p95 ∧ p95.isSome := by
  cases p95 with
  | none => simp [rightsize, reclaimCard, resizeCard] at h
  | some p =>
    rcases Option.or_eq_some_iff.mp h with h | ⟨-, h⟩
    · obtain ⟨q, -, h⟩ := Option.bind_eq_some_iff.mp h
      simp only [Option.bind_some] at h
      split_ifs at h
      obtain rfl := Option.some.inj h
      exact ⟨rfl, rfl, rfl, rfl⟩
    · obtain ⟨l, -, h⟩ := Option.bind_eq_some_iff.mp h
      simp only [Option.bind_some] at h
      split_ifs at h
      obtain rfl := Option.some.inj h
      exact ⟨rfl, rfl, rfl, rfl⟩

def Advice.key (a : Advice) : (String × String) × Resource := ((a.ns, a.card.workload), a.card.resource)

lemma adviceFor_key {k : String × String} {res : Resource} {a : Advice} (h : adviceFor cfg maps k res = some a) :
    a.key = (k, res) := by
  obtain ⟨c, hc, rfl⟩ := Option.map_eq_some_iff.mp h
  obtain ⟨hwl, hres, -⟩ := rightsize_spec hc
  simp only [Advice.key, hwl, hres]

lemma mem_listedKeys {k : String × String} : k ∈ listedKeys maps ↔ ∃ q, k ∈ (maps q).keys := by
  rw [listedKeys, List.mem_insertionSort, List.mem_dedup, List.mem_flatMap]
  constructor
  · rintro ⟨q, -, hq⟩
    exact ⟨q, hq⟩
  · rintro ⟨q, hq⟩
    exact ⟨q, Query.mem_all q, hq⟩

lemma adviceFor_listed {k : String × String} {res : Resource} {a : Advice} (h : adviceFor cfg maps k res = some a) :
    k ∈ listedKeys maps := by
  obtain ⟨c, hc, rfl⟩ := Option.map_eq_some_iff.mp h
  obtain ⟨v, hv⟩ := Option.isSome_iff_exists.mp (rightsize_spec hc).2.2.2
  exact mem_listedKeys.mpr ⟨res.p95, (OrderedMap.mem_keys _ k).mpr ⟨v, hv⟩⟩

lemma mem_sortedCards {a : Advice} : a ∈ sortedCards cfg maps ↔ ∃ k res, adviceFor cfg maps k res = some a := by
  rw [sortedCards, List.mem_insertionSort, unsortedCards, List.mem_flatMap]
  constructor
  · rintro ⟨k, -, hk⟩
    obtain ⟨res, -, hres⟩ := List.mem_filterMap.mp hk
    exact ⟨k, res, hres⟩
  · rintro ⟨k, res, h⟩
    refine ⟨k, adviceFor_listed h, List.mem_filterMap.mpr ⟨res, ?_, h⟩⟩
    cases res <;> simp

lemma listedKeys_nodup : (listedKeys maps).Nodup :=
  (List.perm_insertionSort _ _).nodup_iff.mpr (List.nodup_dedup _)

lemma sortedCards_nodup : ((sortedCards cfg maps).map Advice.key).Nodup := by
  rw [sortedCards, ((List.perm_insertionSort _ _).map Advice.key).nodup_iff, unsortedCards, List.map_flatMap,
    List.nodup_flatMap]
  refine ⟨fun k _ => ?_, listedKeys_nodup.imp fun {k k'} hne => ?_⟩
  · have hsub : (([Resource.cpu, .memory].filterMap (adviceFor cfg maps k)).map Advice.key).Sublist
        ([Resource.cpu, .memory].map fun res => (k, res)) :=
      map_filterMap_sublist (fun res a h => adviceFor_key h) _
    refine hsub.nodup ?_
    simp
  · intro key hkey hkey'
    obtain ⟨a, ha, rfl⟩ := List.mem_map.mp hkey
    obtain ⟨a', ha', heq⟩ := List.mem_map.mp hkey'
    obtain ⟨res, -, hres⟩ := List.mem_filterMap.mp ha
    obtain ⟨res', -, hres'⟩ := List.mem_filterMap.mp ha'
    rw [adviceFor_key hres, adviceFor_key hres'] at heq
    exact hne (congrArg Prod.fst heq).symm

lemma rank_le {a b : Advice} (h : a.rank ≤ b.rank) : a.card.verb = .resize ∨ b.card.verb = .reclaim := by
  cases hb : b.card.verb with
  | reclaim => exact Or.inr rfl
  | resize =>
    left
    by_contra ha
    rw [Advice.rank, Advice.rank, if_neg ha, if_pos hb] at h
    rcases Prod.Lex.toLex_le_toLex.mp h with h | ⟨h, -⟩ <;> simp at h

lemma rank_p95 {a b : Advice} (h : a.rank ≤ b.rank) (hv : a.card.verb = b.card.verb) :
    b.card.p95.getD 0 ≤ a.card.p95.getD 0 := by
  rw [Advice.rank, Advice.rank, hv] at h
  rcases Prod.Lex.toLex_le_toLex.mp h with h | ⟨-, h⟩
  · exact absurd h (lt_irrefl _)
  · exact neg_le_neg_iff.mp h

lemma unavailable_nil (h : ∀ q ∈ Query.all, (maps q).entries = []) (k : String × String) (res : Resource) :
    adviceFor cfg maps k res = none := by
  cases hk : adviceFor cfg maps k res with
  | none => rfl
  | some a =>
    obtain ⟨q, hq⟩ := mem_listedKeys.mp (adviceFor_listed hk)
    have hnil := h q (Query.mem_all q)
    simp [OrderedMap.keys, hnil] at hq

end Contents

section Answer

variable {round : ℚ → Floating} {parseFloat : String → Option Floating} {cfg : SizingConfig} {replies : Replies}

/-- Where all sums are finite, the cards are those of `_rightsize` on the sums that the queries give, each workload and
resource has one at most, the workloads at risk come first, and among cards of one verb the highest usage does. -/
theorem recommendations_cards (round : ℚ → Floating) (parseFloat : String → Option Floating) (cfg : SizingConfig)
    (replies : Replies) (r : Recommendations) (h : recommendations round parseFloat cfg replies = some r) :
    (∀ a, a ∈ r.rightSizing ↔
      ∃ k res, adviceFor cfg (fun q => (sizingSums round parseFloat replies q).rationals) k res = some a) ∧
    (r.rightSizing.map Advice.key).Nodup ∧
    r.rightSizing.Pairwise fun a b => (a.card.verb = .resize ∨ b.card.verb = .reclaim) ∧
      (a.card.verb = b.card.verb → b.card.p95.getD 0 ≤ a.card.p95.getD 0) := by
  rw [recommendations] at h
  split_ifs at h with hnone hfinite
  · obtain rfl := Option.some.inj h
    have hnil : ∀ q ∈ Query.all, (sizingSums round parseFloat replies q).rationals.entries = [] :=
      fun q hq => List.map_eq_nil_iff.mpr (hnone q hq)
    refine ⟨fun a => ?_, List.nodup_nil, List.Pairwise.nil⟩
    simp [unavailable_nil hnil]
  · obtain rfl := Option.some.inj h
    refine ⟨fun a => mem_sortedCards, sortedCards_nodup, ?_⟩
    apply (List.pairwise_insertionSort _ (unsortedCards cfg _)).imp
    intro a b hab
    exact ⟨rank_le hab, rank_p95 hab⟩

end Answer

section Order

variable {cfg : SizingConfig} {maps maps' : Query → WorkloadMap} {round : ℚ → Floating}
  {parseFloat : String → Option Floating}

def PromSeries.workloadKey (s : PromSeries) : String × String := (s.label "namespace", workload (s.label "pod"))

/-- The series of each workload come in the same order, whatever stands between them. -/
def SameOrder (l l' : List PromSeries) : Prop :=
  ∀ k, (l.filter fun s => s.workloadKey = k) = l'.filter fun s => s.workloadKey = k

lemma sameOrder_swap {a b : PromSeries} (h : a.workloadKey ≠ b.workloadKey) (l l' : List PromSeries) :
    SameOrder (l ++ a :: b :: l') (l ++ b :: a :: l') := by
  intro k
  simp only [List.filter_append, List.filter_cons, decide_eq_true_eq]
  congr 1
  split_ifs with ha hb
  · exact absurd (ha.trans hb.symm) h
  · rfl
  · rfl
  · rfl

lemma filter_readings (l : List PromSeries) (k : String × String) :
    ((l.filterMap (readingOf parseFloat)).filter fun s => (s.ns, workload s.pod) = k) =
      (l.filter fun s => s.workloadKey = k).filterMap (readingOf parseFloat) := by
  rw [List.filter_filterMap, List.filterMap_filter]
  apply List.filterMap_congr
  intro s _
  cases hs : readingOf parseFloat s with
  | none => simp
  | some r =>
    rw [readingOf] at hs
    split_ifs at hs
    obtain ⟨v, -, rfl⟩ := Option.map_eq_some_iff.mp hs
    by_cases hk : (s.label "namespace", workload (s.label "pod")) = k <;>
      simp [Option.filter, PromSeries.workloadKey, hk]

variable (round parseFloat) in
lemma promMap_order {reply reply' : Option (List PromSeries)} (h : Option.Rel SameOrder reply reply') :
    (promMap round parseFloat reply).entries.Perm (promMap round parseFloat reply').entries := by
  rw [OrderedMap.perm_iff_get?]
  intro k
  rw [promMap, promMap, promSums_eq, promSums_eq, get?_groupInto, get?_groupInto]
  cases h with
  | some h => rw [readings, readings, Option.getD_some, Option.getD_some, filter_readings, filter_readings, h k]
  | none => rfl

lemma listedKeys_congr (h : ∀ q, (maps q).entries.Perm (maps' q).entries) : listedKeys maps = listedKeys maps' := by
  have hanti : Std.Antisymm fun a b : String × String => toLex a ≤ toLex b :=
    ⟨fun a b hab hba => toLex.injective (le_antisymm hab hba)⟩
  have hperm : (Query.all.flatMap fun q => (maps q).keys).dedup.Perm
      (Query.all.flatMap fun q => (maps' q).keys).dedup := by
    rw [List.perm_ext_iff_of_nodup (List.nodup_dedup _) (List.nodup_dedup _)]
    intro k
    simp only [List.mem_dedup, List.mem_flatMap, OrderedMap.keys, ((h _).map Prod.fst).mem_iff]
  apply List.Perm.eq_of_pairwise' (List.pairwise_insertionSort _ _) (List.pairwise_insertionSort _ _)
  exact ((List.perm_insertionSort _ _).trans hperm).trans (List.perm_insertionSort _ _).symm

lemma sortedCards_congr (h : ∀ q, (maps q).entries.Perm (maps' q).entries) :
    sortedCards cfg maps = sortedCards cfg maps' := by
  have hadvice : adviceFor cfg maps = adviceFor cfg maps' := by
    funext k res
    simp only [adviceFor, fun q => OrderedMap.perm_iff_get?.mp (h q) k]
  rw [sortedCards, sortedCards, unsortedCards, unsortedCards, hadvice, listedKeys_congr h]

lemma gini_perm {xs ys : List ℚ} (h : xs.Perm ys) : gini xs = gini ys := by
  rw [gini, gini, unroundedGini, unroundedGini, members_of_perm (h.filter _)]

def stallsOf (m : WorkloadMap) (ns : String) : List ℚ := (m.entries.filter fun e => e.1.1 = ns).map Prod.snd

lemma fairness_eq (m : WorkloadMap) : fairness m = ((m.entries.map fun e => e.1.1).dedup.insertionSort (· ≤ ·)).map
    fun ns => ⟨ns, gini (stallsOf m ns), (stallsOf m ns).length⟩ := by
  let byNs := groupInto (fun e : (String × String) × ℚ => e.1.1) (appendTo Prod.snd) .empty m.entries
  have hvals : ∀ e ∈ byNs.entries, e.2 = stallsOf m e.1 := by
    intro e he
    have hget := (OrderedMap.get?_eq_some byNs e.1 e.2).mpr he
    rw [get?_lists] at hget
    split_ifs at hget
    exact (Option.some.inj hget).symm
  have hkeys : byNs.keys.Perm (m.entries.map fun e => e.1.1).dedup := by
    rw [List.perm_ext_iff_of_nodup byNs.keys_nodup (List.nodup_dedup _)]
    intro ns
    rw [mem_keys_group, List.mem_dedup, List.mem_map]
  have hsorted : (byNs.entries.insertionSort fun a b => a.1 ≤ b.1).map Prod.fst =
      (m.entries.map fun e => e.1.1).dedup.insertionSort (· ≤ ·) := by
    rw [List.map_insertionSort _ (· ≤ ·) Prod.fst _ fun _ _ _ _ => Iff.rfl]
    apply List.Perm.eq_of_pairwise' (List.pairwise_insertionSort _ _) (List.pairwise_insertionSort _ _)
    exact ((List.perm_insertionSort _ _).trans hkeys).trans (List.perm_insertionSort _ _).symm
  rw [← hsorted, List.map_map]
  apply List.map_congr_left
  intro e he
  rw [hvals e ((List.mem_insertionSort _).mp he)]
  rfl

lemma fairness_perm {m m' : WorkloadMap} (h : m.entries.Perm m'.entries) : fairness m = fairness m' := by
  have hns : (m.entries.map fun e => e.1.1).dedup.insertionSort (· ≤ ·) =
      (m'.entries.map fun e => e.1.1).dedup.insertionSort (· ≤ ·) := by
    apply List.Perm.eq_of_pairwise' (List.pairwise_insertionSort _ _) (List.pairwise_insertionSort _ _)
    exact ((List.perm_insertionSort _ _).trans (h.map _).dedup).trans (List.perm_insertionSort _ _).symm
  rw [fairness_eq, fairness_eq, hns]
  apply List.map_congr_left
  intro ns _
  have hstalls : (stallsOf m ns).Perm (stallsOf m' ns) := (h.filter _).map _
  rw [gini_perm hstalls, hstalls.length_eq]

lemma totalStall_perm {replies replies' : Replies}
    (h : ∀ psi, Option.Rel SameOrder (replies.stall psi) (replies'.stall psi)) :
    (totalStall round parseFloat replies).entries.Perm (totalStall round parseFloat replies').entries := by
  rw [OrderedMap.perm_iff_get?]
  intro k
  have hget : ∀ psi, (promMap round parseFloat (replies.stall psi)).get? k =
      (promMap round parseFloat (replies'.stall psi)).get? k := fun psi =>
    OrderedMap.perm_iff_get?.mp (promMap_order round parseFloat (h psi)) k
  rw [totalStall, totalStall, get?_groupInto, get?_groupInto, List.filter_flatMap, List.filter_flatMap]
  simp only [OrderedMap.filter_key, hget]

lemma rationals_perm {m m' : WorkloadSums} (h : m.entries.Perm m'.entries) :
    m.rationals.entries.Perm m'.rationals.entries := h.map _

lemma finite_iff_of_perm {m m' : WorkloadSums} (h : m.entries.Perm m'.entries) : m.Finite ↔ m'.Finite := by
  have hmem : ∀ x, x ∈ m.values ↔ x ∈ m'.values := fun x => (h.map Prod.snd).mem_iff
  simp only [WorkloadSums.Finite, hmem]

end Order

/-- However its sums round, the gateway answers the same in whatever order Prometheus lists the series of different
workloads; only the order of the series of one workload can matter. -/
theorem recommendations_order_free (round : ℚ → Floating) (parseFloat : String → Option Floating) (cfg : SizingConfig)
    {replies replies' : Replies} (hsizing : ∀ q, Option.Rel SameOrder (replies.sizing q) (replies'.sizing q))
    (hstall : ∀ psi, Option.Rel SameOrder (replies.stall psi) (replies'.stall psi)) :
    recommendations round parseFloat cfg replies = recommendations round parseFloat cfg replies' := by
  have hsums : ∀ q, (sizingSums round parseFloat replies q).entries.Perm
      (sizingSums round parseFloat replies' q).entries := fun q => promMap_order round parseFloat (hsizing q)
  have hstalls : (totalStall round parseFloat replies).entries.Perm (totalStall round parseFloat replies').entries :=
    totalStall_perm hstall
  have hnil : (∀ q ∈ Query.all, (sizingSums round parseFloat replies q).entries = []) ↔
      ∀ q ∈ Query.all, (sizingSums round parseFloat replies' q).entries = [] :=
    forall₂_congr fun q _ => nil_iff_of_perm (hsums q)
  have hfinite : (∀ q ∈ Query.all, (sizingSums round parseFloat replies q).Finite) ↔
      ∀ q ∈ Query.all, (sizingSums round parseFloat replies' q).Finite :=
    forall₂_congr fun q _ => finite_iff_of_perm (hsums q)
  have hcards : sortedCards cfg (fun q => (sizingSums round parseFloat replies q).rationals) =
      sortedCards cfg fun q => (sizingSums round parseFloat replies' q).rationals :=
    sortedCards_congr fun q => rationals_perm (hsums q)
  rw [recommendations, recommendations]
  simp only [hnil, hfinite, finite_iff_of_perm hstalls, hcards, fairness_perm (rationals_perm hstalls)]

def cpuSeries (pod : String) (value : String) : PromSeries :=
  ⟨.ofList [("namespace", "factory-it"), ("pod", pod)], some value⟩

def replicas : List PromSeries :=
  [cpuSeries "historian-7c9f-k2x" "2", cpuSeries "scada-5d8c-q4w" "1", cpuSeries "historian-7c9f-z8q" "3"]

def regrouped : List PromSeries :=
  [cpuSeries "historian-7c9f-k2x" "2", cpuSeries "historian-7c9f-z8q" "3", cpuSeries "scada-5d8c-q4w" "1"]

def idleReplies (reply : List PromSeries) : Replies where
  sizing
    | .cpuReq => some reply
    | .cpuP95 => some [⟨.ofList [("namespace", "factory-it"), ("pod", "historian-7c9f-z8q")], none⟩]
    | _ => none
  stall _ := some []

def readInteger (s : String) : Option Floating :=
  if s = "NaN" then some .nan
  else if s = "+Inf" then some (.inf false)
  else if s.toList.all Char.isDigit ∧ s ≠ "" then
    some (.finite (s.toList.foldl (fun n c => 10 * n + (c.toNat - '0'.toNat)) 0 : ℕ))
  else none

theorem recommendations_cards_replicas :
    ∃ r, recommendations .finite readInteger {} (idleReplies replicas) = some r ∧
      ∃ a ∈ r.rightSizing, a.ns = "factory-it" ∧ a.card.detail = "requests 5.0 CPU, p95 0m -> reclaim 4.5 CPU" := by
  obtain ⟨r, hr⟩ := Option.isSome_iff_exists.mp (by decide +kernel :
    (recommendations .finite readInteger {} (idleReplies replicas)).isSome = true)
  obtain ⟨a, ha, hshown⟩ := Option.map_eq_some_iff.mp (by decide +kernel : (adviceFor {} (fun q =>
    (sizingSums .finite readInteger (idleReplies replicas) q).rationals) ("factory-it", "historian") .cpu).map
      (fun a => (a.ns, a.card.detail)) = some ("factory-it", "requests 5.0 CPU, p95 0m -> reclaim 4.5 CPU"))
  obtain ⟨hns, hdetail⟩ := Prod.mk.inj hshown
  exact ⟨r, hr, a, ((recommendations_cards _ _ _ _ r hr).1 a).mpr ⟨_, _, ha⟩, hns, hdetail⟩

theorem recommendations_order_free_replicas :
    recommendations (fun q => .finite (roundTo 1 q)) readInteger {} (idleReplies replicas) =
      recommendations (fun q => .finite (roundTo 1 q)) readInteger {} (idleReplies regrouped) := by
  apply recommendations_order_free
  · intro q
    cases q with
    | cpuReq => exact .some (sameOrder_swap (by decide) [cpuSeries "historian-7c9f-k2x" "2"] [])
    | cpuP95 => exact .some fun _ => rfl
    | cpuLim | memReq | memLim | memP95 => exact .none
  · exact fun psi => .some fun _ => rfl

end CausalEngine.Api
