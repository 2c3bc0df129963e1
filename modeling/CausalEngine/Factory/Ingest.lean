import CausalEngine.Foundations.Runs

/-! The telemetry ingest: messages enter a bounded queue, a writer takes them out in batches and inserts each batch in
a transaction of its own. A call to the database can fail at any point, a commit also after it has taken effect. -/

namespace CausalEngine.Factory

open Foundations

variable {Row : Type}

inductive Phase (Row : Type)
  | connecting
  | ready
  | filling (batch : List Row)
  | committing (batch : List Row)

structure Ingest (Row : Type) where
  queue : List Row
  phase : Phase Row
  db : List (List Row)
  inserted : ℕ

structure World where
  answers : Bool
  kept : Bool
  expired : Bool

inductive Input (Row : Type)
  | message (row : Row)
  | writer (world : World)

inductive Fate (Row : Type)
  | none
  | dropped (row : Row)
  | lost (batch : List Row)

def Phase.batch : Phase Row → List Row
  | .connecting => []
  | .ready => []
  | .filling batch => batch
  | .committing batch => batch

def Fate.rows : Fate Row → List Row
  | .none => []
  | .dropped row => [row]
  | .lost batch => batch

def Input.received : Input Row → List Row
  | .message row => [row]
  | .writer _ => []

namespace Ingest

def start : Ingest Row := ⟨[], .connecting, [], 0⟩

def onMsg (s : Ingest Row) (row : Row) : Ingest Row × Fate Row :=
  if s.queue.length < 50000 then ({ s with queue := s.queue ++ [row] }, .none) else (s, .dropped row)

def execute (s : Ingest Row) (batch : List Row) (answers : Bool) : Ingest Row × Fate Row :=
  if answers then ({ s with phase := .committing batch }, .none) else ({ s with phase := .connecting }, .lost batch)

def write (s : Ingest Row) (w : World) : Ingest Row × Fate Row :=
  match s.phase with
  | .connecting => (if w.answers then { s with phase := .ready } else s, .none)
  | .ready =>
    match s.queue with
    | [] => (s, .none)
    | row :: queue => ({ s with queue := queue, phase := .filling [row] }, .none)
  | .filling batch =>
    if 500 ≤ batch.length ∨ w.expired then s.execute batch w.answers
    else match s.queue with
      | [] => s.execute batch w.answers
      | row :: queue => ({ s with queue := queue, phase := .filling (batch ++ [row]) }, .none)
  | .committing batch =>
    if w.answers then
      ({ s with phase := .ready, db := s.db ++ [batch], inserted := s.inserted + batch.length }, .none)
    else if w.kept then ({ s with phase := .connecting, db := s.db ++ [batch] }, .none)
    else ({ s with phase := .connecting }, .lost batch)

def step (s : Ingest Row) : Input Row → Ingest Row × Fate Row
  | .message row => s.onMsg row
  | .writer w => s.write w

section Custody

variable {s : Ingest Row}

def rows (s : Ingest Row) : List Row := s.db.flatten ++ s.phase.batch ++ s.queue

lemma write_cases (s : Ingest Row) (w : World) : ((s.write w).2 = .none ∧ (s.write w).1.rows = s.rows) ∨
    s.write w = ({ s with phase := .connecting }, .lost s.phase.batch) := by
  cases hp : s.phase with
  | connecting =>
    simp only [write, hp]
    split_ifs <;> simp [rows, hp, Phase.batch]
  | ready =>
    cases hq : s.queue <;> simp [write, rows, hp, hq, Phase.batch]
  | filling batch =>
    have hexecute : ((s.execute batch w.answers).2 = .none ∧ (s.execute batch w.answers).1.rows = s.rows) ∨
        s.execute batch w.answers = ({ s with phase := .connecting }, .lost batch) := by
      rw [execute]
      split_ifs <;> simp [rows, hp, Phase.batch]
    simp only [write, hp]
    split_ifs
    · exact hexecute
    · split
      · exact hexecute
      · rename_i row queue hq
        simp [rows, hp, hq, Phase.batch]
  | committing batch =>
    simp only [write, hp]
    split_ifs <;> simp [rows, hp, Phase.batch]

structure Keeps (s : Ingest Row) (received lost : List Row) : Prop where
  order : s.rows.Sublist received
  account : (s.rows ++ lost).Perm received

lemma Keeps.step {received lost : List Row} (h : s.Keeps received lost) (i : Input Row) :
    (s.step i).1.Keeps (received ++ i.received) (lost ++ (s.step i).2.rows) := by
  cases i with
  | message row =>
    simp only [Ingest.step, onMsg, Input.received]
    split_ifs
    · have hrows : Ingest.rows { s with queue := s.queue ++ [row] } = s.rows ++ [row] := by simp [rows]
      refine ⟨by rw [hrows]; exact h.order.append_right [row], ?_⟩
      rw [hrows, Fate.rows, List.append_nil, List.append_assoc]
      have hswap : ([row] ++ lost).Perm (lost ++ [row]) := List.perm_append_comm
      exact (hswap.append_left s.rows).trans (by rw [← List.append_assoc]; exact h.account.append_right [row])
    · refine ⟨h.order.trans (List.sublist_append_left _ _), ?_⟩
      rw [Fate.rows, ← List.append_assoc]
      exact h.account.append_right [row]
  | writer w =>
    simp only [Ingest.step, Input.received, List.append_nil]
    rcases write_cases s w with ⟨hnone, hrows⟩ | hlost
    · rw [hnone, Fate.rows, List.append_nil]
      exact ⟨by rw [hrows]; exact h.order, by rw [hrows]; exact h.account⟩
    · rw [hlost]
      have hleft : Ingest.rows { s with phase := .connecting } = s.db.flatten ++ s.queue := by
        simp [rows, Phase.batch]
      have hmove : (s.queue ++ (lost ++ s.phase.batch)).Perm (s.phase.batch ++ (s.queue ++ lost)) := by
        rw [← List.append_assoc]
        exact List.perm_append_comm
      refine ⟨?_, ?_⟩
      · rw [hleft]
        refine List.Sublist.trans ?_ h.order
        rw [rows]
        exact (List.sublist_append_left _ _).append_right s.queue
      · rw [hleft, Fate.rows]
        refine List.Perm.trans ?_ h.account
        rw [rows, List.append_assoc, List.append_assoc, List.append_assoc]
        exact hmove.append_left s.db.flatten

lemma Keeps.run {received lost : List Row} (h : s.Keeps received lost) (inputs : List (Input Row)) :
    (Runs.final Ingest.step s inputs).Keeps (received ++ inputs.flatMap Input.received)
      (lost ++ (Runs.outputs Ingest.step s inputs).flatMap Fate.rows) := by
  induction inputs generalizing s received lost with
  | nil => simpa [Runs.final, Runs.outputs] using h
  | cons i inputs ih =>
    have hrest := ih (h.step i)
    rwa [List.append_assoc, List.append_assoc] at hrest

end Custody

section Bounds

variable {s : Ingest Row}

structure Bounded (s : Ingest Row) : Prop where
  queue : s.queue.length ≤ 50000
  batch : s.phase.batch.length ≤ 500
  nonempty : ∀ batch, s.phase = .filling batch ∨ s.phase = .committing batch → batch ≠ []
  db : ∀ batch ∈ s.db, batch ≠ [] ∧ batch.length ≤ 500
  inserted : s.inserted ≤ s.db.flatten.length

lemma bounded_start : (start : Ingest Row).Bounded := by
  refine ⟨Nat.zero_le _, Nat.zero_le _, ?_, ?_, Nat.zero_le _⟩
  · rintro batch (h | h) <;> cases h
  · exact fun batch h => absurd h (List.not_mem_nil)

lemma Bounded.rest (h : s.Bounded) : ({ s with phase := .connecting } : Ingest Row).Bounded :=
  ⟨h.queue, Nat.zero_le _, (by rintro batch (hb | hb) <;> cases hb), h.db, h.inserted⟩

lemma Bounded.execute (h : s.Bounded) {batch : List Row} (hp : s.phase = .filling batch) (answers : Bool) :
    (s.execute batch answers).1.Bounded := by
  rw [Ingest.execute]
  split_ifs
  · have hlen := h.batch
    rw [hp] at hlen
    refine ⟨h.queue, hlen, ?_, h.db, h.inserted⟩
    rintro b (hb | hb)
    · cases hb
    · obtain rfl := Phase.committing.inj hb
      exact h.nonempty batch (Or.inl hp)
  · exact h.rest

lemma Bounded.write (h : s.Bounded) (w : World) : (s.write w).1.Bounded := by
  cases hp : s.phase with
  | connecting =>
    simp only [Ingest.write, hp]
    split_ifs
    · exact ⟨h.queue, Nat.zero_le _, (by rintro batch (hb | hb) <;> cases hb), h.db, h.inserted⟩
    · exact h
  | ready =>
    cases hq : s.queue with
    | nil =>
      simp only [Ingest.write, hp, hq]
      exact h
    | cons row queue =>
      have hlen := h.queue
      rw [hq, List.length_cons] at hlen
      simp only [Ingest.write, hp, hq]
      refine ⟨(Nat.le_succ _).trans hlen, by simp [Phase.batch], ?_, h.db, h.inserted⟩
      rintro batch (hb | hb)
      · obtain rfl := Phase.filling.inj hb
        exact List.cons_ne_nil _ _
      · cases hb
  | filling batch =>
    simp only [Ingest.write, hp]
    split_ifs with hfull
    · exact h.execute hp w.answers
    · cases hq : s.queue with
      | nil => exact h.execute hp w.answers
      | cons row queue =>
        have hlen := h.queue
        rw [hq, List.length_cons] at hlen
        refine ⟨(Nat.le_succ _).trans hlen, ?_, ?_, h.db, h.inserted⟩
        · rw [Phase.batch, List.length_append, List.length_singleton]
          omega
        · rintro b (hb | hb)
          · obtain rfl := Phase.filling.inj hb
            exact List.append_ne_nil_of_right_ne_nil _ (List.cons_ne_nil _ _)
          · cases hb
  | committing batch =>
    have hlen := h.batch
    rw [hp] at hlen
    have hdb : ∀ b ∈ s.db ++ [batch], b ≠ [] ∧ b.length ≤ 500 := by
      intro b hb
      rcases List.mem_append.mp hb with hb | hb
      · exact h.db b hb
      · rw [List.mem_singleton.mp hb]
        exact ⟨h.nonempty batch (Or.inr hp), hlen⟩
    have hcount : (s.db ++ [batch]).flatten.length = s.db.flatten.length + batch.length := by simp
    have hinserted := h.inserted
    simp only [Ingest.write, hp]
    split_ifs
    · exact ⟨h.queue, Nat.zero_le _, (by rintro b (hb | hb) <;> cases hb), hdb,
        by rw [hcount]; exact Nat.add_le_add_right hinserted _⟩
    · exact ⟨h.queue, Nat.zero_le _, (by rintro b (hb | hb) <;> cases hb), hdb,
        by rw [hcount]; exact hinserted.trans (Nat.le_add_right _ _)⟩
    · exact h.rest

lemma Bounded.step (h : s.Bounded) (i : Input Row) : (s.step i).1.Bounded := by
  cases i with
  | message row =>
    simp only [Ingest.step, onMsg]
    split_ifs with hroom
    · refine ⟨?_, h.batch, h.nonempty, h.db, h.inserted⟩
      rw [List.length_append, List.length_singleton]
      omega
    · exact h
  | writer w => exact h.write w

end Bounds

/-- Whatever the messages, the failures and their order: no row is written twice or out of order, every row that has
been received is in the database, on its way, or given up once, and queue and batches stay within their bounds. -/
theorem rows_at_most_once (inputs : List (Input Row)) :
    (Runs.final step start inputs).rows.Sublist (inputs.flatMap Input.received) ∧
    ((Runs.final step start inputs).rows ++ (Runs.outputs step start inputs).flatMap Fate.rows).Perm
      (inputs.flatMap Input.received) ∧
    (Runs.final step start inputs).queue.length ≤ 50000 ∧
    (∀ batch ∈ (Runs.final step start inputs).db, batch ≠ [] ∧ batch.length ≤ 500) ∧
    (Runs.final step start inputs).inserted ≤ (Runs.final step start inputs).db.flatten.length := by
  have hkeeps := Keeps.run (s := (start : Ingest Row)) ⟨List.Sublist.refl [], List.Perm.refl []⟩ inputs
  have hbounded := Runs.final_invariant step inputs bounded_start fun s (hs : s.Bounded) i _ => hs.step i
  rw [List.nil_append, List.nil_append] at hkeeps
  exact ⟨hkeeps.order, hkeeps.account, hbounded.queue, hbounded.db, hbounded.inserted⟩

end Ingest

end CausalEngine.Factory
