import CausalEngine.Foundations.Runs

/-! The alert dispatcher of the factory: a timer polls the database and posts at most one alert a poll. A post that
fails is repeated at once, up to the third. The timer does not wait for a poll, so that posts of several polls may be
in flight together. -/

namespace CausalEngine.Factory

open Foundations

inductive Alert
  | ingestRateLow (n : ℕ)
  | ingestRateFlood (n : ℕ)
  | dbUnreachable (err : String)
deriving DecidableEq

structure Post where
  alert : Alert
  attempt : ℕ
  pos : 0 < attempt
  le : attempt ≤ 3
deriving DecidableEq

inductive Event
  | polled (rows : Except String ℕ)
  | answered (i : ℕ) (ok : Bool)

inductive Report
  | nothing
  | posted (alert : Alert) (attempt : ℕ)
  | delivered (alert : Alert) (attempt : ℕ)
  | dropped (alert : Alert)
deriving DecidableEq

namespace Dispatcher

def poll : Except String ℕ → Option Alert
  | .ok n => if n < 1000 then some (.ingestRateLow n) else if 150000 < n then some (.ingestRateFlood n) else none
  | .error err => some (.dbUnreachable err)

def send (alert : Alert) : Post := ⟨alert, 1, by decide, by decide⟩

def settle (p : Post) (ok : Bool) : Option Post × Report :=
  if ok then (none, .delivered p.alert p.attempt)
  else if h : p.attempt < 3 then
    (some ⟨p.alert, p.attempt + 1, p.attempt.succ_pos, h⟩, .posted p.alert (p.attempt + 1))
  else (none, .dropped p.alert)

def step (inFlight : List Post) : Event → List Post × Report
  | .polled rows =>
    match poll rows with
    | some alert => (send alert :: inFlight, .posted alert 1)
    | none => (inFlight, .nothing)
  | .answered i ok =>
    match inFlight[i]? with
    | some p => ((settle p ok).1.toList ++ inFlight.eraseIdx i, (settle p ok).2)
    | none => (inFlight, .nothing)

def alertOf : Event → Option Alert
  | .polled rows => poll rows
  | .answered _ _ => none

end Dispatcher

namespace Report

variable (a : Alert)

def raises (r : Report) : Bool := r = .posted a 1

def isPost : Report → Bool
  | .posted b _ => b = a
  | _ => false

def isEnd : Report → Bool
  | .delivered b _ => b = a
  | .dropped b => b = a
  | _ => false

def spent : Report → ℕ
  | .delivered b attempt => if b = a then attempt else 0
  | .dropped b => if b = a then 3 else 0
  | _ => 0

end Report

namespace Dispatcher

section Accounts

variable (a : Alert)

lemma sum_eraseIdx (w : Post → ℕ) {inFlight : List Post} {i : ℕ} {p : Post} (h : inFlight[i]? = some p) :
    (inFlight.map w).sum = w p + ((inFlight.eraseIdx i).map w).sum := by
  obtain ⟨hi, rfl⟩ := List.getElem?_eq_some_iff.mp h
  rw [← ((List.getElem_cons_eraseIdx_perm hi).map w).sum_eq, List.map_cons, List.sum_cons]

lemma step_balance (w : Post → ℕ) (paid earned : Report → ℕ) (hidle : paid .nothing = earned .nothing)
    (hsend : ∀ b, paid (.posted b 1) + w (send b) = earned (.posted b 1))
    (hsettle : ∀ p ok, paid (settle p ok).2 + ((settle p ok).1.toList.map w).sum = w p + earned (settle p ok).2)
    (inFlight : List Post) (e : Event) :
    paid (step inFlight e).2 + ((step inFlight e).1.map w).sum = (inFlight.map w).sum + earned (step inFlight e).2 := by
  cases e with
  | polled rows =>
    cases hp : poll rows with
    | none =>
      simp only [step, hp]
      omega
    | some b =>
      have hb := hsend b
      simp only [step, hp, List.map_cons, List.sum_cons]
      omega
  | answered i ok =>
    cases hi : inFlight[i]? with
    | none =>
      simp only [step, hi]
      omega
    | some p =>
      have hp := hsettle p ok
      have hrest := sum_eraseIdx w hi
      simp only [step, hi, List.map_append, List.sum_append]
      omega

lemma raises_step (inFlight : List Post) (e : Event) :
    (step inFlight e).2.raises a = true ↔ alertOf e = some a := by
  cases e with
  | polled rows => cases hp : poll rows <;> simp [step, hp, Report.raises, alertOf]
  | answered i ok =>
    cases hi : inFlight[i]? with
    | none => simp [step, hi, Report.raises, alertOf]
    | some p =>
      have hpos := p.pos.ne'
      simp only [step, hi, settle, Report.raises, alertOf]
      split_ifs <;> simp [hpos]

lemma raised_outputs (inFlight : List Post) (events : List Event) :
    (Runs.outputs step inFlight events).countP (Report.raises a) = (events.filterMap alertOf).count a := by
  induction events generalizing inFlight with
  | nil => rfl
  | cons e events ih =>
    have he := raises_step a inFlight e
    rw [Runs.outputs, List.countP_cons, ih]
    cases hb : alertOf e with
    | none =>
      rw [hb] at he
      rw [List.filterMap_cons_none hb, if_neg (by simpa using he)]
      rfl
    | some b =>
      rw [hb] at he
      rw [List.filterMap_cons_some hb, List.count_cons]
      simp only [he, Option.some.injEq, beq_iff_eq]

lemma ends_balance (inFlight : List Post) (e : Event) :
    ((step inFlight e).2.isEnd a).toNat + ((step inFlight e).1.map fun p => (decide (p.alert = a)).toNat).sum =
      (inFlight.map fun p => (decide (p.alert = a)).toNat).sum + ((step inFlight e).2.raises a).toNat := by
  refine step_balance (fun p => (decide (p.alert = a)).toNat) (fun r => (r.isEnd a).toNat)
    (fun r => (r.raises a).toNat) rfl ?_ ?_ inFlight e
  · intro b
    by_cases hb : b = a <;> simp [Report.isEnd, Report.raises, send, hb]
  · intro p ok
    have hpos := p.pos.ne'
    simp only [settle]
    split_ifs <;> simp [Report.isEnd, Report.raises, hpos]

lemma posts_balance (inFlight : List Post) (e : Event) :
    (step inFlight e).2.spent a + ((step inFlight e).1.map fun p => if p.alert = a then p.attempt else 0).sum =
      (inFlight.map fun p => if p.alert = a then p.attempt else 0).sum + ((step inFlight e).2.isPost a).toNat := by
  refine step_balance (fun p => if p.alert = a then p.attempt else 0) (Report.spent a)
    (fun r => (r.isPost a).toNat) rfl ?_ ?_ inFlight e
  · intro b
    by_cases hb : b = a <;> simp [Report.spent, Report.isPost, send, hb]
  · intro p ok
    have hle := p.le
    by_cases hlast : p.attempt < 3
    · cases ok <;> by_cases hp : p.alert = a <;> simp [settle, Report.spent, Report.isPost, hlast, hp]
    · have hthree : p.attempt = 3 := by omega
      cases ok <;> by_cases hp : p.alert = a <;> simp [settle, Report.spent, Report.isPost, hthree, hp]

lemma sum_toNat {α : Type} (P : α → Bool) (l : List α) : (l.map fun x => (P x).toNat).sum = l.countP P := by
  induction l with
  | nil => rfl
  | cons x l ih => cases hx : P x <;> simp [hx, ih, Nat.add_comm]

lemma spent_step (inFlight : List Post) (e : Event) :
    ((step inFlight e).2.isEnd a).toNat ≤ (step inFlight e).2.spent a ∧
    (step inFlight e).2.spent a ≤ 3 * ((step inFlight e).2.isEnd a).toNat ∧
    ((∀ i, e ≠ .answered i true) → (step inFlight e).2.spent a = 3 * ((step inFlight e).2.isEnd a).toNat) := by
  cases e with
  | polled rows => cases hp : poll rows <;> simp [step, hp, Report.spent, Report.isEnd]
  | answered i ok =>
    cases hi : inFlight[i]? with
    | none => simp [step, hi, Report.spent, Report.isEnd]
    | some p =>
      simp only [step, hi]
      cases ok with
      | true =>
        refine ⟨?_, ?_, fun h => absurd rfl (h i)⟩
        · by_cases hp : p.alert = a <;> simp [settle, Report.spent, Report.isEnd, hp, Nat.one_le_iff_ne_zero, p.pos.ne']
        · by_cases hp : p.alert = a <;> simp [settle, Report.spent, Report.isEnd, hp, p.le]
      | false =>
        by_cases hlast : p.attempt < 3 <;> by_cases hp : p.alert = a <;>
          simp [settle, Report.spent, Report.isEnd, hlast, hp]

lemma spent_run (inFlight : List Post) (events : List Event) :
    let reports := Runs.outputs step inFlight events
    reports.countP (Report.isEnd a) ≤ (reports.map (Report.spent a)).sum ∧
    (reports.map (Report.spent a)).sum ≤ 3 * reports.countP (Report.isEnd a) ∧
    ((∀ i, .answered i true ∉ events) →
      (reports.map (Report.spent a)).sum = 3 * reports.countP (Report.isEnd a)) := by
  induction events generalizing inFlight with
  | nil => exact ⟨le_rfl, le_rfl, fun _ => rfl⟩
  | cons e events ih =>
    obtain ⟨hlow, hhigh, hfail⟩ := spent_step a inFlight e
    obtain ⟨ihlow, ihhigh, ihfail⟩ := ih (step inFlight e).1
    have hend : (if (step inFlight e).2.isEnd a = true then 1 else 0) = ((step inFlight e).2.isEnd a).toNat := by
      cases (step inFlight e).2.isEnd a <;> rfl
    simp only [Runs.outputs, List.map_cons, List.sum_cons, List.countP_cons, hend]
    refine ⟨by omega, by omega, fun h => ?_⟩
    have hnow := hfail fun i hi => h i (hi ▸ List.mem_cons_self)
    have hrest := ihfail fun i hi => h i (List.mem_cons_of_mem _ hi)
    omega

lemma attempts_between (inFlight : List Post) :
    inFlight.length ≤ (inFlight.map Post.attempt).sum ∧ (inFlight.map Post.attempt).sum ≤ 3 * inFlight.length := by
  induction inFlight with
  | nil => exact ⟨le_rfl, le_rfl⟩
  | cons p inFlight ih =>
    have hpos := p.pos
    have hle := p.le
    rw [List.map_cons, List.sum_cons, List.length_cons]
    omega

lemma ends_run (events : List Event) : (events.filterMap alertOf).count a =
    (Runs.outputs step [] events).countP (Report.isEnd a) +
      ((Runs.final step [] events).filter fun p => p.alert = a).length := by
  have h := Runs.balance step (fun l => (l.map fun p => (decide (p.alert = a)).toNat).sum)
    (fun r => (r.isEnd a).toNat) (fun r => (r.raises a).toNat) (ends_balance a) [] events
  simp only [sum_toNat, raised_outputs] at h
  rw [List.countP_nil, zero_add] at h
  rw [← h, List.countP_eq_length_filter (l := Runs.final step [] events)]

lemma posts_run (events : List Event) : (Runs.outputs step [] events).countP (Report.isPost a) =
    ((Runs.outputs step [] events).map (Report.spent a)).sum +
      (((Runs.final step [] events).filter fun p => p.alert = a).map Post.attempt).sum := by
  have h := Runs.balance step (fun l => (l.map fun p => if p.alert = a then p.attempt else 0).sum)
    (Report.spent a) (fun r => (r.isPost a).toNat) (posts_balance a) [] events
  simp only [sum_toNat, List.sum_map_ite, List.map_const', List.sum_replicate, smul_zero, add_zero,
    List.map_nil, List.sum_nil, zero_add] at h
  exact h.symm

end Accounts

/-- However polls and answers interleave: each alert that is raised is delivered, dropped or under way; the posts are
those that the ended alerts have taken and those under way; there is one for each alert at least and three at most; and
in an outage there are three. -/
theorem retries_accounted (events : List Event) (a : Alert) :
    let reports := Runs.outputs step [] events
    let waiting := (Runs.final step [] events).filter fun p => p.alert = a
    let raised := (events.filterMap alertOf).count a
    let posted := reports.countP (Report.isPost a)
    raised = reports.countP (Report.isEnd a) + waiting.length ∧
    posted = (reports.map (Report.spent a)).sum + (waiting.map Post.attempt).sum ∧
    raised ≤ posted ∧ posted ≤ 3 * raised ∧
    ((∀ i, .answered i true ∉ events) → waiting = [] → posted = 3 * raised) := by
  have hraised := ends_run a events
  have hposted := posts_run a events
  obtain ⟨hlow, hhigh, hfail⟩ := spent_run a [] events
  obtain ⟨hone, hthree⟩ := attempts_between ((Runs.final step [] events).filter fun p => p.alert = a)
  dsimp only
  refine ⟨hraised, hposted, by omega, by omega, fun hfails hnone => ?_⟩
  have hdropped := hfail hfails
  rw [hnone] at hraised hposted
  rw [hposted, hdropped, hraised]
  simp

end Dispatcher

end CausalEngine.Factory
