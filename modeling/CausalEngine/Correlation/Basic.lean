import CausalEngine.Foundations.OrderedMap
import CausalEngine.Foundations.Rounding
import Mathlib.Data.Sym.Sym2
import Mathlib.Data.Prod.Lex

/-! The data that flows through one correlation pass. Numbers are exact rationals; a correlation
coefficient carries its bound, so an edge list always gives a graph with weights in `[0, 1]`. -/

namespace CausalEngine.Correlation

open Foundations

abbrev Vec := List ℚ

abbrev Coef := {r : ℚ // |r| ≤ 1}

abbrev Weight := {w : ℚ // 0 ≤ w ∧ w ≤ 1}

namespace Coef

def zero : Coef := ⟨0, by norm_num⟩

def tenths (k : ℕ) : Coef :=
  ⟨(min k 10 : ℕ) / 10, by
    rw [abs_of_nonneg (by positivity), div_le_one (by norm_num)]
    exact_mod_cast Nat.min_le_right k 10⟩

def abs (r : Coef) : Weight := ⟨|r.val|, abs_nonneg _, r.property⟩

def round (n : ℕ) (r : Coef) : Coef := ⟨roundTo n r.val, abs_roundTo_le_one r.property⟩

end Coef

inductive Evidence
  | stat | write | ebpf | psi | pvc | node | temporal
deriving DecidableEq

def Evidence.name : Evidence → String
  | .stat => "stat"
  | .write => "write"
  | .ebpf => "ebpf"
  | .psi => "psi"
  | .pvc => "pvc"
  | .node => "node"
  | .temporal => "temporal"

structure Edge (Pod : Type) where
  src : Pod
  dst : Pod
  r : Coef
  lagS : ℤ
  evidence : List Evidence
deriving DecidableEq

namespace Edge

variable {Pod : Type}

def pair (e : Edge Pod) : Sym2 Pod := s(e.src, e.dst)

def isSource (e : Edge Pod) : Prop := Evidence.write ∈ e.evidence

instance (e : Edge Pod) : Decidable e.isSource := inferInstanceAs (Decidable (_ ∈ _))

end Edge

inductive Shape
  | saturation | burst | leak | flap | shift
deriving DecidableEq

structure Finding (Pod : Type) where
  pod : Pod
  shape : Shape
  onsetS : ℚ
  severity : ℚ
  nOnsets : ℕ
deriving DecidableEq

structure RootCause (Pod : Type) where
  pod : Pod
  score : ℚ
  onsetS : Option ℚ
deriving DecidableEq

structure Impact (Pod : Type) where
  pod : Pod
  impact : ℚ
  etaS : ℤ
deriving DecidableEq

structure PassMeta where
  pods : ℕ
  active : ℕ
  acceptedEdges : ℕ
deriving DecidableEq

structure PassGraph (Pod : Type) where
  findings : List (Finding Pod)
  edges : List (Edge Pod)
  rootCauseRanking : List (RootCause Pod)
  blastRadius : List (Impact Pod)
  passMeta : PassMeta
deriving DecidableEq

end CausalEngine.Correlation
