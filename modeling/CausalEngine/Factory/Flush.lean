import CausalEngine.Foundations.Runs

/-! The cooling monitor of the factory: its main loop journals and looks for a flag file, which a request sets and a
reset of the scenario takes away. A flag that is found is removed before the storm is started. -/

namespace CausalEngine.Factory

open Foundations

inductive Stage
  | journals
  | looks
  | removes
  | storms
  | down
deriving DecidableEq

structure JournalConfig where
  periodS : ℚ
  fsyncEvery : ℤ

structure Cooling where
  flag : Bool
  stage : Stage
  writes : ℕ
  lastJournal : ℚ

inductive Move
  | main (now : ℚ)
  | flush
  | reset
deriving DecidableEq

def Move.isMain : Move → Bool
  | .main _ => true
  | _ => false

inductive Deed
  | nothing
  | armed
  | cleared
  | journalled (synced : Bool)
  | storm
  | complete
  | crash
deriving DecidableEq

def Deed.isJournal : Deed → Bool
  | .journalled _ => true
  | _ => false

namespace Cooling

def start (flagged : Bool) : Cooling := ⟨flagged, .journals, 0, 0⟩

variable (cfg : JournalConfig)

def syncs (writes : ℕ) : Bool := cfg.fsyncEvery ≠ 0 ∧ (writes : ℤ) % cfg.fsyncEvery = 0

def main (s : Cooling) (now : ℚ) : Cooling × Deed :=
  match s.stage with
  | .journals =>
    if cfg.periodS ≤ now - s.lastJournal then
      ({ s with stage := .looks, writes := s.writes + 1, lastJournal := now }, .journalled (syncs cfg (s.writes + 1)))
    else ({ s with stage := .looks }, .nothing)
  | .looks => ({ s with stage := if s.flag then .removes else .journals }, .nothing)
  | .removes =>
    if s.flag then ({ s with flag := false, stage := .storms }, .storm) else ({ s with stage := .down }, .crash)
  | .storms => ({ s with stage := .journals }, .complete)
  | .down => (start s.flag, .nothing)

-- neither a request nor a reset reaches a container that is down
def step (s : Cooling) : Move → Cooling × Deed
  | .main now => main cfg s now
  | .flush => if s.stage = .down then (s, .nothing) else ({ s with flag := true }, .armed)
  | .reset => if s.stage = .down then (s, .nothing) else ({ s with flag := false }, .cleared)

section Accounts

variable {cfg} {s : Cooling}

variable (cfg) in
lemma main_flag (now : ℚ) (h : s.stage ≠ .removes) : (main cfg s now).1.flag = s.flag ∧
    (main cfg s now).2 ≠ .storm ∧ (main cfg s now).2 ≠ .crash := by
  cases hs : s.stage with
  | journals =>
    simp only [main, hs]
    split_ifs <;> simp
  | removes => exact absurd hs h
  | _ => simp [main, hs, start]

lemma main_removes (now : ℚ) (h : s.stage = .removes) : main cfg s now =
    if s.flag then ({ s with flag := false, stage := .storms }, .storm) else ({ s with stage := .down }, .crash) := by
  rw [main, h]

lemma storm_paid (s : Cooling) (m : Move) : (if (step cfg s m).2 = .storm then 1 else 0) +
    (step cfg s m).1.flag.toNat ≤ s.flag.toNat + if (step cfg s m).2 = .armed then 1 else 0 := by
  cases m with
  | main now =>
    rw [step]
    by_cases h : s.stage = .removes
    · rw [main_removes now h]
      cases s.flag <;> simp
    · obtain ⟨hflag, hstorm, -⟩ := main_flag cfg now h
      rw [if_neg hstorm, hflag]
      omega
  | flush =>
    have hle := Bool.toNat_le s.flag
    by_cases h : s.stage = .down <;> simp [step, h]
  | reset => by_cases h : s.stage = .down <;> simp [step, h]

def surprised (s : Cooling) : Bool := s.stage = .removes ∧ s.flag = false

lemma main_surprised (now : ℚ) : (main cfg s now).1.surprised = false := by
  cases hs : s.stage with
  | journals =>
    simp only [main, hs]
    split_ifs <;> simp [surprised]
  | looks => cases hf : s.flag <;> simp [main, hs, hf, surprised]
  | removes =>
    rw [main_removes now hs]
    split_ifs <;> simp [surprised]
  | _ => simp [main, hs, surprised, start]

lemma crash_paid (s : Cooling) (m : Move) : (if (step cfg s m).2 = .crash then 1 else 0) +
    (step cfg s m).1.surprised.toNat ≤ s.surprised.toNat + if (step cfg s m).2 = .cleared then 1 else 0 := by
  cases m with
  | main now =>
    rw [step, main_surprised]
    by_cases h : s.stage = .removes
    · rw [main_removes now h]
      cases hf : s.flag <;> simp [surprised, h, hf]
    · rw [if_neg (main_flag cfg now h).2.2]
      exact Nat.zero_le _
  | flush => by_cases h : s.stage = .down <;> simp [step, h, surprised]
  | reset =>
    have hle := Bool.toNat_le (surprised { s with flag := false })
    by_cases h : s.stage = .down
    · simp [step, h]
    · simpa [step, h] using le_add_left hle

lemma syncs_iff (writes : ℕ) :
    syncs cfg writes = true ↔ cfg.fsyncEvery ≠ 0 ∧ writes % cfg.fsyncEvery.natAbs = 0 := by
  rw [syncs, decide_eq_true_eq, ← Int.dvd_iff_emod_eq_zero, Int.dvd_natCast, Nat.dvd_iff_mod_eq_zero]

lemma heartbeat_paid (writes : ℕ) : (if syncs cfg (writes + 1) then cfg.fsyncEvery.natAbs else 0) +
    (writes + 1) % cfg.fsyncEvery.natAbs ≤ writes % cfg.fsyncEvery.natAbs + 1 := by
  rw [← Nat.mod_add_mod]
  split_ifs with hsync
  · have hzero := ((syncs_iff (writes + 1)).mp hsync).2
    rw [← Nat.mod_add_mod] at hzero
    rw [hzero, Nat.add_zero]
    exact Nat.le_of_dvd (Nat.succ_pos _) (Nat.dvd_of_mod_eq_zero hzero)
  · rw [Nat.zero_add]
    exact Nat.mod_le _ _

lemma sync_paid (s : Cooling) (m : Move) :
    (if (step cfg s m).2 = .journalled true then cfg.fsyncEvery.natAbs else 0) +
      (step cfg s m).1.writes % cfg.fsyncEvery.natAbs ≤ s.writes % cfg.fsyncEvery.natAbs +
        if (step cfg s m).2.isJournal then 1 else 0 := by
  cases m with
  | main now =>
    rw [step]
    cases hs : s.stage with
    | journals =>
      by_cases hdue : cfg.periodS ≤ now - s.lastJournal
      · simpa [main, hs, hdue, Deed.isJournal] using heartbeat_paid s.writes
      · simp [main, hs, hdue, Deed.isJournal]
    | removes =>
      rw [main_removes now hs]
      cases s.flag <;> simp [Deed.isJournal]
    | _ => simp [main, hs, start]
  | flush => by_cases h : s.stage = .down <;> simp [step, h, Deed.isJournal]
  | reset => by_cases h : s.stage = .down <;> simp [step, h, Deed.isJournal]

lemma step_idle (h : cfg.fsyncEvery = 0) (s : Cooling) (m : Move) : (step cfg s m).2 ≠ .journalled true := by
  cases m with
  | main now =>
    rw [step]
    cases hs : s.stage with
    | journals =>
      simp only [main, hs]
      split_ifs <;> simp [syncs, h]
    | removes =>
      rw [main_removes now hs]
      split_ifs <;> simp
    | _ => simp [main, hs]
  | flush => by_cases hd : s.stage = .down <;> simp [step, hd]
  | reset => by_cases hd : s.stage = .down <;> simp [step, hd]

end Accounts

section Answers

variable {cfg} {s : Cooling}

def turnsLeft (s : Cooling) : ℕ :=
  match s.stage with
  | .removes => 1
  | .looks => 2
  | .journals => 3
  | .storms => 4
  | .down => 4

variable (cfg) in
lemma main_nearer (now : ℚ) (h : s.flag = true) : (main cfg s now).2 = .storm ∨
    (main cfg s now).1.flag = true ∧ (main cfg s now).1.turnsLeft + 1 = s.turnsLeft := by
  cases hs : s.stage with
  | removes => exact Or.inl (by rw [main_removes now hs, if_pos h])
  | journals =>
    right
    simp only [main, hs]
    split_ifs <;> simp [turnsLeft, hs, h]
  | _ => simp [main, hs, h, turnsLeft, start]

lemma storm_comes (rest : List Move) (h : s.flag = true) (hreset : .reset ∉ rest)
    (hturns : s.turnsLeft ≤ rest.countP Move.isMain) : .storm ∈ Runs.outputs (step cfg) s rest := by
  induction rest generalizing s with
  | nil =>
    rw [List.countP_nil, turnsLeft] at hturns
    split at hturns <;> omega
  | cons m rest ih =>
    rw [List.mem_cons, not_or] at hreset
    rw [Runs.outputs, List.mem_cons]
    cases m with
    | main now =>
      rw [List.countP_cons_of_pos rfl] at hturns
      rcases main_nearer cfg now h with hstorm | ⟨hflag, hleft⟩
      · exact Or.inl hstorm.symm
      · exact Or.inr (ih hflag hreset.2 (by rw [step]; omega))
    | flush =>
      rw [List.countP_cons_of_neg (by decide)] at hturns
      refine Or.inr (ih ?_ hreset.2 ?_) <;> rw [step] <;> split_ifs
      · exact h
      · rfl
      · exact hturns
      · exact hturns
    | reset => exact absurd rfl hreset.1

end Answers

/-- However requests, resets and the main loop take turns: every storm answers a request of its own, each time the loop
dies a reset of its own has crossed it, at most every so many heartbeats syncs the disk, and a request that no reset
follows has its storm within four turns of the loop. -/
theorem flush_answered_once (flagged : Bool) (run : List Move) :
    let deeds := Runs.outputs (step cfg) (start flagged) run
    deeds.count .storm ≤ deeds.count .armed + flagged.toNat ∧
    deeds.count .crash ≤ deeds.count .cleared ∧
    cfg.fsyncEvery.natAbs * deeds.count (.journalled true) ≤ deeds.countP Deed.isJournal ∧
    (cfg.fsyncEvery = 0 → .journalled true ∉ deeds) ∧
    ∀ rest : List Move, (Runs.final (step cfg) (start flagged) run).stage ≠ .down → .reset ∉ rest →
      4 ≤ rest.countP Move.isMain →
        .storm ∈ Runs.outputs (step cfg) (Runs.final (step cfg) (start flagged) (run ++ [.flush])) rest := by
  refine ⟨?_, ?_, ?_, fun hnever hmem => ?_, fun rest hup hreset hturns => ?_⟩
  · have hstorms := Runs.account (step cfg) (fun s => s.flag.toNat) (· == .storm) (· == .armed) 1
      (fun s m => by simpa using storm_paid s m) (start flagged) run
    simp only [start, one_mul] at hstorms
    exact (Nat.le_of_add_right_le hstorms).trans_eq (Nat.add_comm _ _)
  · have hcrashes := Runs.account (step cfg) (fun s => s.surprised.toNat) (· == .crash) (· == .cleared) 1
      (fun s m => by simpa using crash_paid s m) (start flagged) run
    have hcalm : (start flagged).surprised = false := by simp [surprised, start]
    rw [one_mul, hcalm, Bool.toNat_false, Nat.zero_add] at hcrashes
    exact Nat.le_of_add_right_le hcrashes
  · have hsyncs := Runs.account (step cfg) (fun s => s.writes % cfg.fsyncEvery.natAbs) (· == .journalled true)
      Deed.isJournal cfg.fsyncEvery.natAbs (fun s m => by simpa using sync_paid s m) (start flagged) run
    exact (Nat.le_of_add_right_le hsyncs).trans_eq (by simp [start])
  · have hidle := Runs.account (step cfg) (fun _ => 0) (· == .journalled true) (fun _ => false) 1
      (fun s m => by simpa using step_idle hnever s m) (start flagged) run
    rw [List.countP_false, one_mul] at hidle
    exact List.count_eq_zero.mp (Nat.le_zero.mp hidle) hmem
  · rw [Runs.final_snoc, step, if_neg hup]
    refine storm_comes rest rfl hreset (le_trans ?_ hturns)
    rw [turnsLeft]
    split <;> omega

example : .crash ∈ Runs.outputs (step ⟨10, 0⟩) (start true) [.main 12, .main 12, .reset, .main 12] := by
  decide +kernel

end Cooling

end CausalEngine.Factory
