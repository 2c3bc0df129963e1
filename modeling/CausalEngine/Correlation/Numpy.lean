import CausalEngine.Correlation.Basic
import Mathlib.Data.List.Sort

/-! The array operations the engine takes from `numpy`, in exact arithmetic. -/

namespace CausalEngine.Correlation

def mean (x : Vec) : ℚ := x.sum / x.length

def sorted (x : Vec) : Vec := x.insertionSort (· ≤ ·)

def median (x : Vec) : ℚ :=
  let s := sorted x
  let n := s.length
  if n % 2 = 1 then s.getD (n / 2) 0 else (s.getD (n / 2 - 1) 0 + s.getD (n / 2) 0) / 2

def percentile (x : Vec) (q : ℕ) : ℚ :=
  let s := sorted x
  let i := q * (s.length - 1) / 100
  let lo := s.getD i 0
  let hi := s.getD (i + 1) lo
  lo + (hi - lo) * ((q * (s.length - 1) % 100 : ℕ) / 100)

def maximum : Vec → ℚ
  | [] => 0
  | x :: xs => xs.foldl max x

def minimum : Vec → ℚ
  | [] => 0
  | x :: xs => xs.foldl min x

def absDev (x : Vec) (c : ℚ) : Vec := x.map fun v => |v - c|

def takeLast (n : ℕ) (x : Vec) : Vec := if n = 0 then x else x.drop (x.length - n)

def slice (lo n : ℕ) (x : Vec) : Vec := (x.drop lo).take n

def polyfitSlope (x : Vec) : ℚ :=
  let t : Vec := (List.range x.length).map fun i => (i : ℚ)
  let dt := t.map (· - mean t)
  (List.zipWith (· * ·) dt (x.map (· - mean x))).sum / (dt.map fun d => d * d).sum

def sign (v : ℚ) : ℤ := if 0 < v then 1 else if v < 0 then -1 else 0

def crossings (x : Vec) : ℕ :=
  let s := x.map sign
  (List.zipWith (fun a b => decide (b - a ≠ 0)) s s.tail).count true

example : median [3, 1, 2, 10] = 5 / 2 ∧ percentile [0, 10, 20] 90 = 18 := by decide +kernel

end CausalEngine.Correlation
