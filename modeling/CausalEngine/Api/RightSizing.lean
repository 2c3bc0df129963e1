import CausalEngine.Foundations.Rounding
import Mathlib.Logic.Relation
import Mathlib.Tactic

/-! Right-sizing cards for one workload: a request far above the usage is reclaimed, a limit close to the usage
is raised. Following the cards comes to rest. -/

namespace CausalEngine.Api

open Foundations

inductive Resource
  | cpu | memory
deriving DecidableEq

inductive Verb
  | reclaim | resize
deriving DecidableEq

lemma resizeFrac_default : (0 : ℚ) < 85 / 100 := by norm_num

structure SizingConfig where
  reclaimFrac : ℚ := 1 / 2
  resizeFrac : ℚ := 85 / 100
  resizeFrac_pos : 0 < resizeFrac := by exact resizeFrac_default

def headroom : ℚ := 13 / 10

structure Card where
  verb : Verb
  workload : String
  resource : Resource
  detail : String
  request : Option ℚ
  limit : Option ℚ
  p95 : Option ℚ
  target : ℚ
deriving DecidableEq

def showHundredths (k : ℤ) : String :=
  let r := k % 100
  toString (k / 100) ++ "." ++
    (if r % 10 = 0 then toString (r / 10) else if r < 10 then "0" ++ toString r else toString r)

def fmtCpu (c : ℚ) : String :=
  if c < 1 then toString (roundHalfEven (c * 1000)) ++ "m"
  else showHundredths (roundHalfEven (c * 100)) ++ " CPU"

def fmtUnits (v : ℚ) : List String → String
  | [] => toString (roundHalfEven v)
  | [u] => toString (roundHalfEven v) ++ " " ++ u
  | u :: us => if 1024 ≤ v then fmtUnits (v / 1024) us else toString (roundHalfEven v) ++ " " ++ u

def fmtMem (b : ℚ) : String := fmtUnits b ["B", "KB", "MB", "GB"]

def Resource.fmt : Resource → ℚ → String
  | .cpu => fmtCpu
  | .memory => fmtMem

def Resource.minSave : Resource → ℚ
  | .cpu => 5 / 100
  | .memory => 64 * 1024 * 1024

-- `if v`: neither missing nor zero
def given (v : Option ℚ) : Option ℚ := v.filter (· ≠ 0)

def reclaimTarget (req p95 : ℚ) : ℚ := max (p95 * headroom) (req * (1 / 10))

def resizeTarget (lim : ℚ) : ℚ := lim * (3 / 2)

section Advice

variable (cfg : SizingConfig)

def reclaimCard (wl : String) (req lim p95 : Option ℚ) (resource : Resource) : Option Card :=
  (given req).bind fun q => p95.bind fun p =>
    if p < cfg.reclaimFrac * q ∧ resource.minSave < q - reclaimTarget q p then
      some ⟨.reclaim, wl, resource, "requests " ++ resource.fmt q ++ ", p95 " ++ resource.fmt p ++ " -> reclaim " ++
        resource.fmt (q - reclaimTarget q p), req, lim, p95, roundTo 3 (reclaimTarget q p)⟩
    else none

def resizeCard (wl : String) (req lim p95 : Option ℚ) (resource : Resource) : Option Card :=
  (given lim).bind fun l => p95.bind fun p =>
    if cfg.resizeFrac * l < p then
      some ⟨.resize, wl, resource, "p95 " ++ resource.fmt p ++ " near limit " ++ resource.fmt l ++
        " -> resize up (throttle/OOM risk)", req, lim, p95, roundTo 3 (resizeTarget l)⟩
    else none

def rightsize (wl : String) (req lim p95 : Option ℚ) (resource : Resource) : Option Card :=
  (reclaimCard cfg wl req lim p95 resource).or (resizeCard cfg wl req lim p95 resource)

structure Grant where
  request : ℚ
  limit : ℚ
  request_pos : 0 < request
  limit_pos : 0 < limit

lemma reclaimTarget_pos {req p95 : ℚ} (h : 0 < req) : 0 < reclaimTarget req p95 :=
  lt_max_of_lt_right (by positivity)

lemma resizeTarget_pos {lim : ℚ} (h : 0 < lim) : 0 < resizeTarget lim := by
  rw [resizeTarget]
  positivity

def Grant.apply (g : Grant) (p95 : ℚ) : Verb → Grant
  | .reclaim => { g with request := reclaimTarget g.request p95, request_pos := reclaimTarget_pos g.request_pos }
  | .resize => { g with limit := resizeTarget g.limit, limit_pos := resizeTarget_pos g.limit_pos }

def Grant.card (wl : String) (resource : Resource) (p95 : ℚ) (g : Grant) : Option Card :=
  rightsize cfg wl (some g.request) (some g.limit) (some p95) resource

def Follows (wl : String) (resource : Resource) (p95 : ℚ) (g g' : Grant) : Prop :=
  ∃ card, g.card cfg wl resource p95 = some card ∧ g' = g.apply p95 card.verb

variable {cfg} {wl : String} {resource : Resource} {p95 : ℚ} {g : Grant}

lemma Resource.minSave_pos (resource : Resource) : 0 < resource.minSave := by
  cases resource <;> norm_num [Resource.minSave]

lemma card_spec {card : Card} (h : g.card cfg wl resource p95 = some card) :
    card.verb = .reclaim ∧ p95 < cfg.reclaimFrac * g.request ∧
        resource.minSave < g.request - reclaimTarget g.request p95 ∨
      card.verb = .resize ∧ cfg.resizeFrac * g.limit < p95 := by
  rcases Option.or_eq_some_iff.mp h with h | ⟨-, h⟩
  · obtain ⟨q, hq, h⟩ := Option.bind_eq_some_iff.mp h
    obtain rfl := Option.some.inj (Option.filter_eq_some_iff.mp hq).1
    simp only [Option.bind_some] at h
    split_ifs at h with hc
    obtain rfl := Option.some.inj h
    exact Or.inl ⟨rfl, hc⟩
  · obtain ⟨l, hl, h⟩ := Option.bind_eq_some_iff.mp h
    obtain rfl := Option.some.inj (Option.filter_eq_some_iff.mp hl).1
    simp only [Option.bind_some] at h
    split_ifs at h with hc
    obtain rfl := Option.some.inj h
    exact Or.inr ⟨rfl, hc⟩

lemma reclaim_saves (hsave : resource.minSave < g.request - reclaimTarget g.request p95) :
    (g.apply p95 .reclaim).request < g.request - resource.minSave ∧
      headroom * p95 ≤ (g.apply p95 .reclaim).request := by
  refine ⟨?_, ?_⟩
  · simp only [Grant.apply]
    linarith
  · rw [mul_comm]
    exact le_max_left _ _

lemma resize_raises : g.limit < (g.apply p95 .resize).limit := by
  have hl := g.limit_pos
  simp only [Grant.apply, resizeTarget]
  linarith

lemma settles_within {n k m : ℕ} (hn : k + m = n) (hraises : p95 ≤ cfg.resizeFrac * (g.limit * (3 / 2) ^ k))
    (hsavings : g.request ≤ m * resource.minSave) :
    ∃ t, Relation.ReflTransGen (Follows cfg wl resource p95) g t ∧ t.card cfg wl resource p95 = none := by
  induction n generalizing g k m with
  | zero =>
    obtain ⟨rfl, rfl⟩ := Nat.add_eq_zero_iff.mp hn
    have hr := g.request_pos
    simp only [Nat.cast_zero, zero_mul] at hsavings
    linarith
  | succ n ih =>
    cases hcard : g.card cfg wl resource p95 with
    | none => exact ⟨g, .refl, hcard⟩
    | some card =>
      have hstep : Follows cfg wl resource p95 g (g.apply p95 card.verb) := ⟨card, hcard, rfl⟩
      suffices hrest : ∃ t, Relation.ReflTransGen (Follows cfg wl resource p95) (g.apply p95 card.verb) t ∧
          t.card cfg wl resource p95 = none by
        obtain ⟨t, ht, hnone⟩ := hrest
        exact ⟨t, .head hstep ht, hnone⟩
      rcases card_spec hcard with ⟨hv, -, hsave⟩ | ⟨hv, hlim⟩
      · rw [hv]
        cases m with
        | zero =>
          have hr := g.request_pos
          simp only [Nat.cast_zero, zero_mul] at hsavings
          linarith
        | succ m =>
          refine ih (k := k) (m := m) (by omega) hraises ?_
          push_cast at hsavings
          simp only [Grant.apply]
          linarith
      · rw [hv]
        cases k with
        | zero =>
          simp only [pow_zero, mul_one] at hraises
          linarith
        | succ k =>
          refine ih (k := k) (m := m) (by omega) ?_ hsavings
          simp only [Grant.apply, resizeTarget]
          calc p95 ≤ cfg.resizeFrac * (g.limit * (3 / 2) ^ (k + 1)) := hraises
            _ = cfg.resizeFrac * (g.limit * (3 / 2) * (3 / 2) ^ k) := by rw [pow_succ']; ring

lemma exists_raises (cfg : SizingConfig) (g : Grant) (p95 : ℚ) :
    ∃ k : ℕ, p95 ≤ cfg.resizeFrac * (g.limit * (3 / 2) ^ k) := by
  have hpos := mul_pos cfg.resizeFrac_pos g.limit_pos
  obtain ⟨k, hk⟩ := pow_unbounded_of_one_lt (p95 / (cfg.resizeFrac * g.limit)) (by norm_num : (1 : ℚ) < 3 / 2)
  refine ⟨k, ?_⟩
  rw [div_lt_iff₀ hpos] at hk
  calc p95 ≤ (3 / 2) ^ k * (cfg.resizeFrac * g.limit) := hk.le
    _ = cfg.resizeFrac * (g.limit * (3 / 2) ^ k) := by ring

end Advice

/-- Followed from any grant, the advice comes to an end; until then every reclaim saves more than the least
saving and leaves the headroom over the usage, and every resize raises the limit. -/
theorem advice_settles (cfg : SizingConfig) (wl : String) (resource : Resource) (p95 : ℚ) (g : Grant) :
    (∃ t, Relation.ReflTransGen (Follows cfg wl resource p95) g t ∧ t.card cfg wl resource p95 = none) ∧
    ∀ t card, Relation.ReflTransGen (Follows cfg wl resource p95) g t → t.card cfg wl resource p95 = some card →
      (card.verb = .reclaim → (t.apply p95 card.verb).request < t.request - resource.minSave ∧
        headroom * p95 ≤ (t.apply p95 card.verb).request ∧ (t.apply p95 card.verb).limit = t.limit) ∧
      (card.verb = .resize → t.limit < (t.apply p95 card.verb).limit ∧
        (t.apply p95 card.verb).request = t.request) := by
  obtain ⟨k, hk⟩ := exists_raises cfg g p95
  obtain ⟨m, hm⟩ := exists_nat_ge (g.request / resource.minSave)
  refine ⟨settles_within rfl hk ((div_le_iff₀ resource.minSave_pos).mp hm), ?_⟩
  intro t card _ hcard
  rcases card_spec hcard with ⟨hv, -, hsave⟩ | ⟨hv, -⟩
  · rw [hv]
    obtain ⟨hlow, hroom⟩ := reclaim_saves hsave
    exact ⟨fun _ => ⟨hlow, hroom, rfl⟩, by simp⟩
  · rw [hv]
    exact ⟨by simp, fun _ => ⟨resize_raises, rfl⟩⟩

example : (rightsize {} "timescaledb" (some 2) (some 4) (some (1 / 5)) .cpu).map (fun c => (c.detail, c.target)) =
    some ("requests 2.0 CPU, p95 200m -> reclaim 1.74 CPU", 26 / 100) := by decide +kernel

end CausalEngine.Api
