import Mathlib.Tactic

/-! A connection to a store with an implicit transaction. What a statement writes is seen on the connection at once
and is in the store from the next commit on, whichever transaction that commit was meant for. -/

namespace CausalEngine.Foundations

structure Connection (σ : Type) where
  committed : σ
  current : σ

namespace Connection

variable {σ : Type}

def exec (f : σ → σ) (c : Connection σ) : Connection σ := { c with current := f c.current }

def commit (c : Connection σ) : Connection σ := ⟨c.current, c.current⟩

def carryOut (c : Connection σ) (ops : List (Connection σ → Connection σ)) : Connection σ :=
  ops.foldl (fun c op => op c) c

def written (s : σ) (fs : List (σ → σ)) : σ := fs.foldl (fun s f => f s) s

def transaction (fs : List (σ → σ)) : List (Connection σ → Connection σ) := fs.map exec ++ [commit]

lemma carryOut_append (c : Connection σ) (ops ops' : List (Connection σ → Connection σ)) :
    c.carryOut (ops ++ ops') = (c.carryOut ops).carryOut ops' := List.foldl_append

lemma written_append (s : σ) (fs gs : List (σ → σ)) : written s (fs ++ gs) = written (written s fs) gs :=
  List.foldl_append

lemma carryOut_exec (c : Connection σ) (fs : List (σ → σ)) :
    c.carryOut (fs.map exec) = ⟨c.committed, written c.current fs⟩ := by
  induction fs generalizing c with
  | nil => rfl
  | cons f fs ih => exact ih (c.exec f)

lemma carryOut_transaction (c : Connection σ) (fs : List (σ → σ)) :
    c.carryOut (transaction fs) = ⟨written c.current fs, written c.current fs⟩ := by
  rw [transaction, carryOut_append, carryOut_exec]
  rfl

lemma current_interrupted (c : Connection σ) (fs : List (σ → σ)) (n : ℕ) :
    (c.carryOut ((transaction fs).take n)).current = written c.current (fs.take n) := by
  rcases le_or_gt n fs.length with hn | hn
  · rw [transaction, List.take_append_of_le_length (by rwa [List.length_map]), ← List.map_take, carryOut_exec]
  · have hall : (transaction fs).length ≤ n := by
      rw [transaction, List.length_append, List.length_map]
      exact hn
    rw [List.take_of_length_le hall, carryOut_transaction, List.take_of_length_le hn.le]

lemma interrupted_eq_self {c : Connection σ} (hc : c.committed = c.current) {fs : List (σ → σ)} {n : ℕ}
    (h : written c.current (fs.take n) = c.current) : c.carryOut ((transaction fs).take n) = c := by
  obtain ⟨s, t⟩ := c
  obtain rfl : s = t := hc
  rcases le_or_gt n fs.length with hn | hn
  · rw [transaction, List.take_append_of_le_length (by rwa [List.length_map]), ← List.map_take, carryOut_exec, h]
  · have hall : (transaction fs).length ≤ n := by
      rw [transaction, List.length_append, List.length_map]
      exact hn
    rw [List.take_of_length_le hn.le] at h
    rw [List.take_of_length_le hall, carryOut_transaction, h]

lemma interrupted_append {P : Connection σ → Prop} {c : Connection σ} {ops ops' : List (Connection σ → Connection σ)}
    (h : ∀ n, P (c.carryOut (ops.take n))) (h' : ∀ n, P ((c.carryOut ops).carryOut (ops'.take n))) (n : ℕ) :
    P (c.carryOut ((ops ++ ops').take n)) := by
  rcases le_or_gt n ops.length with hn | hn
  · rw [List.take_append_of_le_length hn]
    exact h n
  · rw [List.take_append, List.take_of_length_le hn.le, carryOut_append]
    exact h' _

lemma committed_interrupted_exec (c : Connection σ) (fs : List (σ → σ)) (n : ℕ) :
    (c.carryOut ((fs.map exec).take n)).committed = c.committed := by
  rw [← List.map_take, carryOut_exec]

-- a statement that is committed by itself
def execCommitted (f : σ → σ) (c : Connection σ) : Connection σ := (c.exec f).commit

lemma carryOut_execCommitted (s : σ) (fs : List (σ → σ)) :
    carryOut ⟨s, s⟩ (fs.map execCommitted) = ⟨written s fs, written s fs⟩ := by
  induction fs generalizing s with
  | nil => rfl
  | cons f fs ih => exact ih (f s)

end Connection

end CausalEngine.Foundations
