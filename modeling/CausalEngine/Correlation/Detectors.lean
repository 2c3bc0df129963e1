import CausalEngine.Correlation.Numpy

/-! Change points of one signal (EWMA residuals, two-sided CUSUM) and the shape that follows one. -/

namespace CausalEngine.Correlation

def dtS : ℚ := 5

def ewmaFrom (alpha prev : ℚ) : Vec → Vec
  | [] => []
  | v :: x => (alpha * v + (1 - alpha) * prev) :: ewmaFrom alpha (alpha * v + (1 - alpha) * prev) x

def ewma (alpha : ℚ) : Vec → Vec
  | [] => []
  | v :: x => v :: ewmaFrom alpha v x

def robustSigma (x : Vec) : ℚ := max (14826 / 10000 * median (absDev x (median x))) (1 / 10 ^ 6)

inductive Direction
  | up | down
deriving DecidableEq

structure Onset where
  idx : ℕ
  direction : Direction
  zpeak : ℚ
deriving DecidableEq

def backtrack (z : Vec) (sgn : ℚ) : ℕ → ℕ
  | 0 => 0
  | i + 1 => if 1 / 2 < sgn * z.getD i 0 then backtrack z sgn i else i + 1

structure Cusum where
  gp : ℚ
  gn : ℚ
  armedAt : ℕ
  onsets : List Onset

def Cusum.alarm (z : Vec) (s : Cusum) (i : ℕ) (d : Direction) (sgn : ℚ) : Cusum :=
  ⟨0, 0, i + 3, s.onsets ++ [⟨backtrack z sgn i, d, z.getD i 0⟩]⟩

def Cusum.step (k h : ℚ) (z : Vec) (s : Cusum) (i : ℕ) : Cusum :=
  let gp := max 0 (s.gp + z.getD i 0 - k)
  let gn := max 0 (s.gn - z.getD i 0 - k)
  if h < gp ∧ s.armedAt ≤ i then s.alarm z i .up 1
  else if h < gn ∧ s.armedAt ≤ i then s.alarm z i .down (-1)
  else { s with gp := gp, gn := gn }

def zscores (warmup : ℕ) (x : Vec) : Vec :=
  let base := ewma (3 / 10) x
  let resid := List.zipWith (· - ·) x (base.take 1 ++ base.dropLast)
  let sigN := min (max (warmup * 2) (x.length / 3)) 60
  resid.map (· / robustSigma (resid.take sigN))

def cusumOnsetsWith (k h : ℚ) (warmup : ℕ) (x : Vec) : List Onset :=
  if x.length < warmup + 4 then []
  else
    let z := zscores warmup x
    ((List.range' warmup (z.length - warmup)).foldl (Cusum.step k h z) ⟨0, 0, warmup, []⟩).onsets

def cusumOnsets (x : Vec) : List Onset := cusumOnsetsWith (1 / 2) 5 12 x

def classify (x : Vec) (onsetIdx : ℕ) (cap : Option ℚ) : Shape :=
  let seg := x.drop onsetIdx
  if seg.length < 6 then .shift
  else
    let pre := median (x.take (max onsetIdx 1))
    let sigmaPre := robustSigma (if 8 < onsetIdx then x.take onsetIdx else x)
    let tail := takeLast (max 3 (seg.length / 4)) seg
    let excursion := maximum (absDev seg pre)
    let cameBack := |median tail - pre| < 3 / 2 * sigmaPre
    let mid := (maximum seg + minimum seg) / 2
    if cap.any fun c => 92 / 100 * c ≤ median (takeLast (max 3 (seg.length / 3)) seg) then .saturation
    else if cameBack ∧ 3 * sigmaPre < excursion then .burst
    else if 0 < polyfitSlope seg ∧ 2 * sigmaPre < seg.getLastD 0 - seg.headD 0 then .leak
    else if 4 ≤ crossings (seg.map (· - mid)) ∧ 4 * sigmaPre < maximum seg - minimum seg then .flap
    else .shift

end CausalEngine.Correlation
