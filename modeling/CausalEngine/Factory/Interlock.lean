import CausalEngine.Foundations.Runs

/-! The safety interlock of the factory: a ticker that tests the age of the last heartbeat and a handler of
heartbeats. Every read and write of what they share is a step of its own. Clocks count milliseconds. -/

namespace CausalEngine.Factory

open Foundations

inductive Ticker
  | waiting
  | timed (now : ℤ)
  | late
  | trips
  | prints
deriving DecidableEq

inductive Handler
  | idle
  | stamped (now : ℤ)
  | clears
deriving DecidableEq

structure Interlock where
  last : ℤ
  tripped : Bool
  ticker : Ticker
  handler : Handler
deriving DecidableEq

inductive Thread
  | ticker | handler
deriving DecidableEq

structure Turn where
  thread : Thread
  clock : ℤ

namespace Interlock

def start (clock : ℤ) : Interlock := ⟨clock, false, .waiting, .idle⟩

def tick (s : Interlock) (clock : ℤ) : Interlock × Option String :=
  match s.ticker with
  | .waiting => ({ s with ticker := .timed clock }, none)
  | .timed now => ({ s with ticker := if 3000 < now - s.last then .late else .waiting }, none)
  | .late => ({ s with ticker := if s.tripped then .waiting else .trips }, none)
  | .trips => ({ s with tripped := true, ticker := .prints }, none)
  | .prints => ({ s with ticker := .waiting }, some "SAFE-MODE TRIP: ccr heartbeat lost >3s")

def beat (s : Interlock) (clock : ℤ) : Interlock :=
  match s.handler with
  | .idle => { s with handler := .stamped clock }
  | .stamped now => { s with last := now, handler := .clears }
  | .clears => { s with tripped := false, handler := .idle }

def step (s : Interlock) (turn : Turn) : Interlock × Option String :=
  match turn.thread with
  | .ticker => s.tick turn.clock
  | .handler => (s.beat turn.clock, none)

def state (s : Interlock) : String := if s.tripped then "SAFE_MODE" else "ARMED"

section Clocks

variable {s : Interlock} {t : ℤ}

structure Behind (s : Interlock) (t : ℤ) : Prop where
  last : s.last ≤ t
  ticker : ∀ now, s.ticker = .timed now → now ≤ t
  handler : ∀ now, s.handler = .stamped now → s.last ≤ now ∧ now ≤ t

lemma behind_start (clock : ℤ) : (start clock).Behind clock := ⟨le_rfl, by simp [start], by simp [start]⟩

lemma Behind.mono {u : ℤ} (h : s.Behind t) (hu : t ≤ u) : s.Behind u :=
  ⟨h.last.trans hu, fun now hnow => (h.ticker now hnow).trans hu,
    fun now hnow => ⟨(h.handler now hnow).1, (h.handler now hnow).2.trans hu⟩⟩

lemma tick_last (s : Interlock) (clock : ℤ) : (s.tick clock).1.last = s.last := by
  rw [tick]
  split <;> rfl

lemma tick_handler (s : Interlock) (clock : ℤ) : (s.tick clock).1.handler = s.handler := by
  rw [tick]
  split <;> rfl

lemma beat_ticker (s : Interlock) (clock : ℤ) : (s.beat clock).ticker = s.ticker := by
  rw [beat]
  split <;> rfl

lemma Behind.tick (h : s.Behind t) : (s.tick t).1.Behind t := by
  refine ⟨by rw [tick_last]; exact h.last, ?_, by rw [tick_last, tick_handler]; exact h.handler⟩
  intro now hnow
  cases hs : s.ticker with
  | waiting =>
    simp only [Interlock.tick, hs, Ticker.timed.injEq] at hnow
    exact hnow.ge
  | timed then' =>
    simp only [Interlock.tick, hs] at hnow
    split_ifs at hnow
  | late =>
    simp only [Interlock.tick, hs] at hnow
    split_ifs at hnow
  | trips => simp [Interlock.tick, hs] at hnow
  | prints => simp [Interlock.tick, hs] at hnow

lemma Behind.beat (h : s.Behind t) : (s.beat t).Behind t ∧ s.last ≤ (s.beat t).last := by
  cases hs : s.handler with
  | idle =>
    simp only [Interlock.beat, hs]
    refine ⟨⟨h.last, h.ticker, fun now hnow => ?_⟩, le_rfl⟩
    obtain rfl := Handler.stamped.inj hnow
    exact ⟨h.last, le_rfl⟩
  | stamped now =>
    simp only [Interlock.beat, hs]
    exact ⟨⟨(h.handler now hs).2, h.ticker, by simp⟩, (h.handler now hs).1⟩
  | clears =>
    simp only [Interlock.beat, hs]
    exact ⟨⟨h.last, h.ticker, by simp⟩, le_rfl⟩

lemma Behind.step (h : s.Behind t) {turn : Turn} (ht : t ≤ turn.clock) :
    (s.step turn).1.Behind turn.clock ∧ s.last ≤ (s.step turn).1.last := by
  rw [Interlock.step]
  cases turn.thread with
  | ticker => exact ⟨(h.mono ht).tick, (tick_last s turn.clock).ge⟩
  | handler => exact (h.mono ht).beat

end Clocks

section Calm

variable {s : Interlock} {t : ℤ}

structure Calm (s : Interlock) : Prop where
  armed : s.tripped = false
  late : s.ticker ≠ .late
  trips : s.ticker ≠ .trips

lemma calm_start (clock : ℤ) : (start clock).Calm := ⟨rfl, by simp [start], by simp [start]⟩

lemma Calm.tick (h : s.Calm) (hb : s.Behind t) (hfresh : t ≤ s.last + 3000) : (s.tick t).1.Calm := by
  cases hs : s.ticker with
  | waiting =>
    simp only [Interlock.tick, hs]
    exact ⟨h.armed, by simp, by simp⟩
  | timed now =>
    have hle := hb.ticker now hs
    simp only [Interlock.tick, hs, if_neg (by omega : ¬ 3000 < now - s.last)]
    exact ⟨h.armed, by simp, by simp⟩
  | late => exact absurd hs h.late
  | trips => exact absurd hs h.trips
  | prints =>
    simp only [Interlock.tick, hs]
    exact ⟨h.armed, by simp, by simp⟩

lemma Calm.beat (h : s.Calm) (clock : ℤ) : (s.beat clock).Calm := by
  refine ⟨?_, by rw [beat_ticker]; exact h.late, by rw [beat_ticker]; exact h.trips⟩
  cases hs : s.handler <;> simp only [Interlock.beat, hs, h.armed]

lemma Calm.step (h : s.Calm) (hb : s.Behind t) {turn : Turn} (ht : t ≤ turn.clock)
    (hfresh : turn.clock ≤ s.last + 3000) : (s.step turn).1.Calm := by
  rw [Interlock.step]
  cases turn.thread with
  | ticker => exact h.tick (hb.mono ht) hfresh
  | handler => exact h.beat turn.clock

lemma Calm.silent (h : s.Calm) (hp : s.ticker ≠ .prints) (turn : Turn) :
    (s.step turn).2 = none ∧ (s.step turn).1.ticker ≠ .prints := by
  rw [Interlock.step]
  cases turn.thread with
  | handler => exact ⟨rfl, by rw [beat_ticker]; exact hp⟩
  | ticker =>
    cases hs : s.ticker with
    | waiting => simp [Interlock.tick, hs]
    | timed now =>
      simp only [Interlock.tick, hs, true_and]
      split_ifs <;> simp
    | late => exact absurd hs h.late
    | trips => exact absurd hs h.trips
    | prints => exact absurd hs hp

end Calm

section Overdue

variable {s : Interlock} {turn : Turn}

/-- The turns that the ticker needs to trip, once the last beat is too old. -/
def rank (s : Interlock) : ℕ :=
  if s.tripped then 0
  else match s.ticker with
    | .waiting => 4
    | .timed now => if 3000 < now - s.last then 3 else 5
    | .late => 2
    | .trips => 1
    | .prints => 5

lemma rank_le (s : Interlock) : s.rank ≤ 5 := by
  rw [rank]
  split_ifs
  · exact Nat.zero_le 5
  · cases s.ticker with
    | timed now =>
      dsimp only
      split_ifs <;> decide
    | _ => simp

lemma rank_eq_zero (h : s.rank = 0) : s.tripped = true := by
  rw [rank] at h
  split_ifs at h with ht
  · exact ht
  · cases hs : s.ticker with
    | timed now =>
      simp only [hs] at h
      split_ifs at h
    | _ => simp [hs] at h

lemma rank_tick {clock : ℤ} (h : s.last + 3000 < clock) : (s.tick clock).1.rank ≤ s.rank - 1 := by
  cases ht : s.tripped with
  | true =>
    have hstays : (s.tick clock).1.tripped = true := by
      cases hs : s.ticker <;> simp only [tick, hs, ht]
    rw [rank, if_pos hstays]
    exact Nat.zero_le _
  | false =>
    cases hs : s.ticker with
    | waiting => simp [tick, rank, hs, ht, (by omega : 3000 < clock - s.last)]
    | timed now =>
      simp only [tick, rank, hs, ht]
      by_cases hlate : 3000 < now - s.last <;> simp [hlate]
    | late => simp [tick, rank, hs, ht]
    | trips => simp [tick, rank, hs]
    | prints => simp [tick, rank, hs, ht]

lemma rank_run (rest : List Turn)
    (h : ∀ turn ∈ rest, turn.thread = .ticker ∧ s.last + 3000 < turn.clock) :
    (Runs.final step s rest).rank ≤ s.rank - rest.length := by
  induction rest generalizing s with
  | nil => exact le_rfl
  | cons turn rest ih =>
    obtain ⟨hthread, hclock⟩ := h turn List.mem_cons_self
    have hstep : s.step turn = s.tick turn.clock := by rw [step, hthread]
    have hrest := ih (s := (s.step turn).1) fun u hu => by
      rw [hstep, tick_last]
      exact h u (List.mem_cons_of_mem _ hu)
    have hrank := rank_tick hclock
    rw [← hstep] at hrank
    rw [Runs.final, List.length_cons]
    omega

end Overdue

section Runs

variable {s : Interlock} {t : ℤ}

def Timely (t : ℤ) (run : List Turn) : Prop := (t :: run.map Turn.clock).Pairwise (· ≤ ·)

lemma Timely.tail {turn : Turn} {run : List Turn} (h : Timely t (turn :: run)) :
    t ≤ turn.clock ∧ Timely turn.clock run := by
  rw [Timely, List.map_cons, List.pairwise_cons] at h
  exact ⟨h.1 turn.clock List.mem_cons_self, h.2⟩

lemma behind_run (hb : s.Behind t) {past rest : List Turn} (h : Timely t (past ++ rest)) :
    ∃ u, t ≤ u ∧ (Runs.final step s past).Behind u ∧ Timely u rest := by
  induction past generalizing s t with
  | nil => exact ⟨t, le_rfl, hb, h⟩
  | cons turn past ih =>
    obtain ⟨ht, htail⟩ := h.tail
    obtain ⟨u, hu, hfinal, hrest⟩ := ih (hb.step ht).1 htail
    exact ⟨u, ht.trans hu, hfinal, hrest⟩

def Fresh (s : Interlock) (run : List Turn) : Prop :=
  ∀ past turn, past ++ [turn] <+: run → turn.clock ≤ (Runs.final step s past).last + 3000

lemma fresh_cons {turn : Turn} {run : List Turn} :
    s.Fresh (turn :: run) ↔ turn.clock ≤ s.last + 3000 ∧ (s.step turn).1.Fresh run := by
  constructor
  · intro h
    exact ⟨h [] turn ⟨run, rfl⟩, fun past u ⟨rest, hrest⟩ => h (turn :: past) u ⟨rest, by rw [← hrest]; rfl⟩⟩
  · rintro ⟨hnow, hlater⟩ past u ⟨rest, hrest⟩
    cases past with
    | nil =>
      obtain ⟨rfl, -⟩ := List.cons.inj hrest
      exact hnow
    | cons v past =>
      obtain ⟨rfl, htail⟩ := List.cons.inj hrest
      exact hlater past u ⟨rest, htail⟩

lemma fresh_nil : s.Fresh [] := fun past turn h => absurd (List.prefix_nil.mp h) (by simp)

lemma calm_run (h : s.Calm) (hb : s.Behind t) {run : List Turn} (ht : Timely t run) (hfresh : s.Fresh run) :
    (Runs.final step s run).Calm := by
  induction run generalizing s t with
  | nil => exact h
  | cons turn run ih =>
    obtain ⟨hclock, htail⟩ := ht.tail
    obtain ⟨hnow, hrest⟩ := fresh_cons.mp hfresh
    exact ih (h.step hb hclock hnow) (hb.step hclock).1 htail hrest

lemma silent_run (h : s.Calm) (hp : s.ticker ≠ .prints) (hb : s.Behind t) {run : List Turn} (ht : Timely t run)
    (hfresh : s.Fresh run) : ∀ o ∈ Runs.outputs step s run, o = none := by
  induction run generalizing s t with
  | nil => exact fun o ho => absurd ho (List.not_mem_nil)
  | cons turn run ih =>
    obtain ⟨hclock, htail⟩ := ht.tail
    obtain ⟨hnow, hrest⟩ := fresh_cons.mp hfresh
    obtain ⟨hout, hnext⟩ := h.silent hp turn
    rw [Runs.outputs, List.forall_mem_cons]
    exact ⟨hout, ih (h.step hb hclock hnow) hnext (hb.step hclock).1 htail hrest⟩

lemma fresh_of_ticks {run : List Turn} (h : ∀ turn ∈ run, turn.thread = .ticker ∧ turn.clock ≤ s.last + 3000) :
    s.Fresh run := by
  rintro past turn ⟨rest, rfl⟩
  have hlast : ∀ (l : List Turn) (s : Interlock), (∀ u ∈ l, u.thread = .ticker) →
      (Runs.final step s l).last = s.last := by
    intro l
    induction l with
    | nil => exact fun _ _ => rfl
    | cons u l ih =>
      intro s hl
      have hstep : s.step u = s.tick u.clock := by rw [step, hl u List.mem_cons_self]
      rw [Runs.final, ih _ fun v hv => hl v (List.mem_cons_of_mem _ hv), hstep, tick_last]
  rw [hlast past s fun u hu => (h u (by simp [hu])).1]
  exact (h turn (by simp)).2

end Runs

/-- However the goroutines take turns: as long as beats are handled in time the interlock stays armed and prints
nothing, and once the last beat is too old it trips within five turns of the ticker, to stay so without a beat. -/
theorem interlock_watches (clock : ℤ) (run : List Turn) (h : Timely clock run) :
    ((start clock).Fresh run → (Runs.final step (start clock) run).state = "ARMED" ∧
      ∀ o ∈ Runs.outputs step (start clock) run, o = none) ∧
    ∀ rest : List Turn, 5 ≤ rest.length → (∀ turn ∈ rest, turn.thread = .ticker ∧
      (Runs.final step (start clock) run).last + 3000 < turn.clock) →
      (Runs.final step (start clock) (run ++ rest)).state = "SAFE_MODE" := by
  refine ⟨fun hfresh => ⟨?_, ?_⟩, fun rest hlen hrest => ?_⟩
  · rw [state, (calm_run (calm_start clock) (behind_start clock) h hfresh).armed]
    rfl
  · exact silent_run (calm_start clock) (by simp [start]) (behind_start clock) h hfresh
  · have hrank := rank_run rest hrest
    have hle := rank_le (Runs.final step (start clock) run)
    rw [Runs.final_append, state, rank_eq_zero (by omega)]
    rfl

def beatenRun : List Turn :=
  [⟨.ticker, 1000⟩, ⟨.ticker, 1000⟩, ⟨.handler, 2500⟩, ⟨.handler, 2500⟩, ⟨.handler, 2500⟩, ⟨.ticker, 5000⟩]

theorem interlock_watches_outage : (Runs.final step (start 0) beatenRun).state = "ARMED" ∧
    (∀ o ∈ Runs.outputs step (start 0) beatenRun, o = none) ∧
    (Runs.final step (start 0) (beatenRun ++ List.replicate 5 ⟨.ticker, 6000⟩)).state = "SAFE_MODE" := by
  have htimely : Timely 0 beatenRun := by simp [Timely, beatenRun]
  have hfresh : (start 0).Fresh beatenRun := by
    simp only [beatenRun, fresh_cons, fresh_nil]
    decide
  obtain ⟨hcalm, htrips⟩ := interlock_watches 0 beatenRun htimely
  obtain ⟨harmed, hsilent⟩ := hcalm hfresh
  refine ⟨harmed, hsilent, htrips (List.replicate 5 ⟨.ticker, 6000⟩) (by decide) fun turn hturn => ?_⟩
  rw [List.eq_of_mem_replicate hturn]
  exact ⟨rfl, by decide⟩

section Overtaken

variable {s : Interlock}

lemma tick_tripped (h : s.tripped = true) (clock : ℤ) : (s.tick clock).1.tripped = true := by
  cases hs : s.ticker <;> simp only [tick, hs, h]

lemma tick_trips (h : s.ticker = .trips) (clock : ℤ) : (s.tick clock).1.tripped = true := by simp [tick, h]

lemma caught_ticks (h : s.ticker = .late ∨ s.ticker = .trips) (harmed : s.tripped = false) (first second : ℤ) :
    ((s.tick first).1.tick second).1.tripped = true := by
  rcases h with h | h
  · exact tick_trips (by simp [tick, h, harmed]) second
  · exact tick_tripped (tick_trips h first) second

lemma tripped_ticks (rest : List Turn) (h : ∀ turn ∈ rest, turn.thread = .ticker) (ht : s.tripped = true) :
    (Runs.final step s rest).tripped = true := by
  refine Runs.final_invariant step (P := fun s => s.tripped = true) rest ht fun u hu turn hturn => ?_
  rw [step, h turn hturn]
  exact tick_tripped hu turn.clock

/-- A beat that has just been handled is overtaken exactly where the ticker had already found the beat before it too
old, but has not told so yet: then safe mode is entered with a fresh beat. -/
theorem beat_overtaken_iff (clock : ℤ) (run rest : List Turn) (beat : Turn)
    (htime : Timely clock (run ++ beat :: rest)) (hbeat : beat.thread = .handler)
    (hclears : (Runs.final step (start clock) run).handler = .clears) (hlen : 2 ≤ rest.length)
    (hrest : ∀ turn ∈ rest, turn.thread = .ticker ∧
      turn.clock ≤ (Runs.final step (start clock) run).last + 3000) :
    (Runs.final step (start clock) (run ++ beat :: rest)).state = "SAFE_MODE" ↔
      (Runs.final step (start clock) run).ticker = .late ∨ (Runs.final step (start clock) run).ticker = .trips := by
  obtain ⟨t, -, hbehind, htail⟩ := behind_run (behind_start clock) htime
  rw [Runs.final_append]
  generalize Runs.final step (start clock) run = s at hclears hrest hbehind ⊢
  have hcleared : (s.step beat).1 = { s with tripped := false, handler := .idle } := by
    rw [step, hbeat]
    simp only [Interlock.beat, hclears]
  have hstate : ∀ u : Interlock, u.state = "SAFE_MODE" ↔ u.tripped = true := by
    intro u
    rw [state]
    cases u.tripped <;> decide
  rw [hstate, Runs.final, hcleared]
  constructor
  · intro htripped
    by_contra hcaught
    rw [not_or] at hcaught
    have hcalm : ({ s with tripped := false, handler := .idle } : Interlock).Calm := ⟨rfl, hcaught.1, hcaught.2⟩
    have hnext := (hbehind.step htail.tail.1).1
    rw [hcleared] at hnext
    have harmed := (calm_run hcalm hnext htail.tail.2 (fresh_of_ticks hrest)).armed
    exact absurd htripped (by rw [harmed]; decide)
  · intro hcaught
    cases rest with
    | nil => exact absurd hlen (by decide)
    | cons first rest =>
      cases rest with
      | nil => exact absurd hlen (by simp)
      | cons second rest =>
        have hticks : ∀ u : Interlock, ∀ turn ∈ first :: second :: rest,
            (u.step turn).1 = (u.tick turn.clock).1 := by
          intro u turn hturn
          rw [step, (hrest turn hturn).1]
        rw [Runs.final, Runs.final, hticks _ first (by simp), hticks _ second (by simp)]
        apply tripped_ticks rest fun turn hturn => (hrest turn (by simp [hturn])).1
        exact caught_ticks (s := { s with tripped := false, handler := .idle }) hcaught rfl first.clock second.clock

theorem beat_overtaken_race : (Runs.final step (start 0)
    ([⟨.ticker, 3001⟩, ⟨.ticker, 3001⟩, ⟨.handler, 3002⟩, ⟨.handler, 3002⟩] ++
      ⟨.handler, 3002⟩ :: [⟨.ticker, 3003⟩, ⟨.ticker, 3003⟩])).state = "SAFE_MODE" :=
  (beat_overtaken_iff 0 _ [⟨.ticker, 3003⟩, ⟨.ticker, 3003⟩] ⟨.handler, 3002⟩ (by simp [Timely]) rfl (by decide)
    (by decide) (by decide)).mpr (Or.inl (by decide))

end Overtaken

end Interlock

end CausalEngine.Factory
