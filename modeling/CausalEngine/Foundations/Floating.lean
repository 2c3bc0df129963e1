import Mathlib.Algebra.BigOperators.Group.List.Basic
import Mathlib.Algebra.Order.Ring.Unbundled.Rat
import Mathlib.Data.Prod.Lex

/-! Numbers as floating point has them. What an operation gives on rationals goes through a rounding, which is a
parameter and may overflow; the operations that round nothing add up in any order. -/

namespace CausalEngine.Foundations

inductive Floating
  | nan
  | inf (negative : Bool)
  | finite (q : ℚ)
deriving DecidableEq

namespace Floating

def rat? : Floating → Option ℚ
  | finite q => some q
  | _ => none

lemma rat?_eq_some {x : Floating} {q : ℚ} : x.rat? = some q ↔ x = finite q := by
  cases x <;> simp [rat?]

def negative : Floating → Bool
  | nan => false
  | inf n => n
  | finite q => q < 0

def neg : Floating → Floating
  | nan => nan
  | inf n => inf !n
  | finite q => finite (-q)

def abs : Floating → Floating
  | nan => nan
  | inf _ => inf false
  | finite q => finite |q|

section Operations

variable (round : ℚ → Floating)

def add : Floating → Floating → Floating
  | finite p, finite q => round (p + q)
  | inf m, inf n => if m = n then inf m else nan
  | inf m, finite _ | finite _, inf m => inf m
  | _, _ => nan

def sub (x y : Floating) : Floating := add round x y.neg

def mul : Floating → Floating → Floating
  | finite p, finite q => round (p * q)
  | nan, _ | _, nan => nan
  | x, y => if x = finite 0 ∨ y = finite 0 then nan else inf (x.negative != y.negative)

-- zeros have no sign here
def div : Floating → Floating → Floating
  | finite p, finite q => if q ≠ 0 then round (p / q) else if p = 0 then nan else inf (p < 0)
  | finite _, inf _ => finite 0
  | inf m, finite q => inf (m != decide (q < 0))
  | _, _ => nan

end Operations

section Order

-- what is not a number sorts first
def place : Floating → ℕ ×ₗ ℚ
  | nan => toLex (0, 0)
  | inf true => toLex (1, 0)
  | finite q => toLex (2, q)
  | inf false => toLex (3, 0)

lemma place_injective : Function.Injective place := by
  rintro (_ | (_ | _) | p) (_ | (_ | _) | q) h <;> simp_all [place]

instance : LinearOrder Floating := LinearOrder.lift' place place_injective

lemma finite_le_iff {p q : ℚ} : finite p ≤ finite q ↔ p ≤ q := by
  change place (finite p) ≤ place (finite q) ↔ p ≤ q
  simp [place, Prod.Lex.toLex_le_toLex]

lemma finite_lt_iff {p q : ℚ} : finite p < finite q ↔ p < q := by
  rw [← not_le, ← not_le, finite_le_iff]

lemma finite_lt_of_rat? {q : ℚ} {x : Floating} (h : x.rat? = none) : finite q < x ↔ x = inf false := by
  change place (finite q) < place x ↔ _
  rcases x with _ | (_ | _) | p
  · simp [place, Prod.Lex.toLex_lt_toLex]
  · simp [place, Prod.Lex.toLex_lt_toLex]
  · simp [place, Prod.Lex.toLex_lt_toLex]
  · cases h

end Order

section Exact

instance : Zero Floating := ⟨finite 0⟩

instance : Add Floating := ⟨add finite⟩

@[simp] lemma nan_add (x : Floating) : nan + x = nan := by
  cases x <;> rfl

@[simp] lemma add_nan (x : Floating) : x + nan = nan := by
  cases x <;> rfl

@[simp] lemma finite_add_finite (p q : ℚ) : finite p + finite q = finite (p + q) := rfl

@[simp] lemma inf_add_finite (m : Bool) (q : ℚ) : inf m + finite q = inf m := rfl

@[simp] lemma finite_add_inf (p : ℚ) (m : Bool) : finite p + inf m = inf m := rfl

@[simp] lemma inf_add_inf (m n : Bool) : inf m + inf n = if m = n then inf m else nan := rfl

instance : AddCommMonoid Floating where
  add_assoc := by
    rintro (_ | (_ | _) | p) (_ | (_ | _) | q) (_ | (_ | _) | r) <;> simp [add_assoc]
  zero_add := by
    rintro (_ | m | q)
    · rfl
    · rfl
    · exact congrArg finite (zero_add q)
  add_zero := by
    rintro (_ | m | q)
    · rfl
    · rfl
    · exact congrArg finite (add_zero q)
  add_comm := by
    rintro (_ | (_ | _) | p) (_ | (_ | _) | q) <;> simp [add_comm]
  nsmul := nsmulRec

end Exact

end Floating

end CausalEngine.Foundations
