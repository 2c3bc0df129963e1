import CausalEngine.Correlation.Detectors
import Mathlib.Data.List.MinMax

/-! Lagged correlation of two signals. The statistics taken from `numpy` and `scipy` are the
parameter `Stats`; a coefficient that is not a number is `none`. -/

namespace CausalEngine.Correlation

open Foundations

structure Stats where
  std : Vec → ℚ
  skew : Vec → ℚ
  pearsonr : Vec → Vec → Option Coef
  spearmanr : Vec → Vec → Option Coef

def lagsS : List ℤ := [0, 5, 15, 30, 60, 120]

variable (S : Stats)

def znorm (x : Vec) : Vec :=
  let sd := S.std x
  x.map fun v => (v - mean x) / (if 1 / 10 ^ 9 < sd then sd else 1)

def corrAtLag (src dst : Vec) (lagSamples : ℕ) : Coef :=
  let a := src.take (src.length - lagSamples)
  let b := dst.drop lagSamples
  if a.length < 12 ∨ S.std a < 1 / 10 ^ 9 ∨ S.std b < 1 / 10 ^ 9 then Coef.zero
  else if 2 < |S.skew a| ∨ 2 < |S.skew b| then (S.spearmanr a b).getD Coef.zero
  else (S.pearsonr a b).getD Coef.zero

abbrev Profile := OrderedMap ℤ Coef

def lagSamples (lagS : ℤ) : ℕ := (roundHalfEven (lagS / dtS)).toNat

def lagProfile (src dst : Vec) : Profile :=
  OrderedMap.ofList ((lagsS.filter fun lag => lagSamples lag + 12 < src.length).map fun lag =>
    (lag, corrAtLag S (znorm S src) (znorm S dst) (lagSamples lag)))

def peakAbs (p : Profile) : ℤ × Coef :=
  (p.entries.argmax fun e => |e.2.val|).getD (0, Coef.zero)

structure Directed where
  forward : Bool
  r : Coef
  lagS : ℤ
  profile : Profile

def bestDirected (srcv dstv : Vec) : Directed :=
  let n := min srcv.length dstv.length
  let fwd := lagProfile S (takeLast n srcv) (takeLast n dstv)
  let rev := lagProfile S (takeLast n dstv) (takeLast n srcv)
  let fbest := peakAbs fwd
  let rbest := peakAbs rev
  if |fbest.2.val| + 1 / 10 ^ 9 < |rbest.2.val| then ⟨false, rbest.2, rbest.1, rev⟩
  else ⟨true, fbest.2, fbest.1, fwd⟩

def adjacentSupport (profile : Profile) (peakLag : ℤ) (floor : ℚ) : Bool :=
  let lags := profile.keys.insertionSort (· ≤ ·)
  let i := lags.idxOf peakLag
  let neighbors := (if i = 0 then [] else lags[i - 1]?.toList) ++ lags[i + 1]?.toList
  decide (peakLag ∈ lags) && neighbors.any fun n => (profile.get? n).any fun r => floor ≤ |r.val|

section Moments

def centred (x : Vec) : Vec :=
  let m := mean x
  x.map (· - m)

def moment (k : ℕ) (x : Vec) : ℚ := mean ((centred x).map (· ^ k))

def covariance (a b : Vec) : ℚ := mean (List.zipWith (· * ·) (centred a) (centred b))

def clamp (r : ℚ) : Coef :=
  ⟨max (-1) (min r 1), abs_le.mpr ⟨le_max_left _ _, max_le (by norm_num) (min_le_right _ _)⟩⟩

def pearson (a b : Vec) : Option Coef :=
  let d := sqrtDown (moment 2 a * moment 2 b)
  if d = 0 then none else some (clamp (covariance a b / d))

def ranks (x : Vec) : Vec :=
  x.map fun v => (x.countP (· < v) : ℚ) + ((x.count v : ℚ) + 1) / 2

def momentStats : Stats where
  std x := sqrtDown (moment 2 x)
  skew x := moment 3 x / (moment 2 x * sqrtDown (moment 2 x))
  pearsonr := pearson
  spearmanr a b := pearson (ranks a) (ranks b)

end Moments

end CausalEngine.Correlation
