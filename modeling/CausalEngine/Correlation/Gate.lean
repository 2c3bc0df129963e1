import CausalEngine.Correlation.Lagcorr

/-! The evidence gate. A relation between pods is a Python set of two-element sets, listed in the
order in which iteration meets its members. -/

namespace CausalEngine.Correlation

open Foundations

def rPeak : ℚ := 6 / 10
def rAdj : ℚ := 4 / 10
def temporalTolS : ℚ := 10

def couplingKinds : List Evidence := [.ebpf, .pvc]
def sourceCouplingKinds : List Evidence := [.ebpf, .pvc, .node]

structure Witness (Pod : Type) where
  ebpfEdges : List (Pod × Pod)
  psiCopressure : List (Sym2 Pod)
  sharedRelation : List (Sym2 Pod)
  sameNode : List (Sym2 Pod)

namespace Witness

variable {Pod : Type} [DecidableEq Pod] (w : Witness Pod)

def kinds (src dst : Pod) : List Evidence :=
  (if (src, dst) ∈ w.ebpfEdges ∨ (dst, src) ∈ w.ebpfEdges then [.ebpf] else []) ++
    (if s(src, dst) ∈ w.psiCopressure then [.psi] else []) ++
    (if s(src, dst) ∈ w.sharedRelation then [.pvc] else []) ++
    (if s(src, dst) ∈ w.sameNode then [.node] else [])

def couples (src dst : Pod) : Bool := (w.kinds src dst).any (· ∈ couplingKinds)

def couplesSource (src dst : Pod) : Bool := (w.kinds src dst).any (· ∈ sourceCouplingKinds)

lemma kinds_symm (a b : Pod) : w.kinds a b = w.kinds b a := by
  simp only [kinds, Sym2.eq_swap (a := a), or_comm]

lemma couples_symm (a b : Pod) : w.couples a b = w.couples b a := by
  simp only [couples, w.kinds_symm a b]

lemma couplesSource_symm (a b : Pod) : w.couplesSource a b = w.couplesSource b a := by
  simp only [couplesSource, w.kinds_symm a b]

def networkLinked (a b : Pod) : Prop := (a, b) ∈ w.ebpfEdges ∨ (b, a) ∈ w.ebpfEdges

lemma couples_iff (a b : Pod) :
    w.couples a b = true ↔ w.networkLinked a b ∨ s(a, b) ∈ w.sharedRelation := by
  simp only [couples, kinds, couplingKinds, networkLinked]
  split_ifs <;> simp_all

lemma couplesSource_iff (a b : Pod) : w.couplesSource a b = true ↔
    w.networkLinked a b ∨ s(a, b) ∈ w.sharedRelation ∨ s(a, b) ∈ w.sameNode := by
  simp only [couplesSource, kinds, sourceCouplingKinds, networkLinked]
  split_ifs <;> simp_all

lemma write_notMem_kinds (a b : Pod) : Evidence.write ∉ w.kinds a b := by
  simp only [kinds]
  split_ifs <;> simp

def links (a b : Pod) : Prop :=
  w.networkLinked a b ∨ s(a, b) ∈ w.psiCopressure ∨ s(a, b) ∈ w.sharedRelation ∨ s(a, b) ∈ w.sameNode

lemma links_of_couples {a b : Pod} (h : w.couples a b = true) : w.links a b := by
  rcases (w.couples_iff a b).mp h with h | h
  · exact Or.inl h
  · exact Or.inr (Or.inr (Or.inl h))

lemma links_of_couplesSource {a b : Pod} (h : w.couplesSource a b = true) : w.links a b := by
  rcases (w.couplesSource_iff a b).mp h with h | h | h
  · exact Or.inl h
  · exact Or.inr (Or.inr (Or.inl h))
  · exact Or.inr (Or.inr (Or.inr h))

end Witness

section AcceptEdge

variable {Pod : Type} [DecidableEq Pod]

def tooLate (tSrc tDst : Option ℚ) : Bool :=
  match tSrc, tDst with
  | some s, some d => d + temporalTolS < s
  | _, _ => false

def tooFar (lagS : ℤ) (tSrc tDst : Option ℚ) : Bool :=
  match tSrc, tDst with
  | some s, some d => 0 < lagS ∧ 4 * lagS + temporalTolS < d - s
  | _, _ => false

def temporalEvidence (tSrc tDst : Option ℚ) : List Evidence :=
  if tSrc.isSome ∧ tDst.isSome then [.temporal] else []

def acceptEdge (src dst : Pod) (r : Coef) (lagS : ℤ) (profile : Profile) (w : Witness Pod)
    (onsetS : OrderedMap Pod ℚ) : Option (Edge Pod) :=
  let tSrc := onsetS.get? src
  let tDst := onsetS.get? dst
  if r.val < rPeak ∨ adjacentSupport profile lagS rAdj = false then none
  else if w.couples src dst = false then none
  else if tooLate tSrc tDst ∨ tooFar lagS tSrc tDst then none
  else some ⟨src, dst, r.round 3, lagS, .stat :: w.kinds src dst ++ temporalEvidence tSrc tDst⟩

lemma acceptEdge_spec {src dst : Pod} {r : Coef} {lagS : ℤ} {profile : Profile} {w : Witness Pod}
    {onsetS : OrderedMap Pod ℚ} {e : Edge Pod}
    (h : acceptEdge src dst r lagS profile w onsetS = some e) :
    rPeak ≤ r.val ∧ w.couples src dst = true ∧ tooLate (onsetS.get? src) (onsetS.get? dst) = false ∧
      e = ⟨src, dst, r.round 3, lagS,
        .stat :: w.kinds src dst ++ temporalEvidence (onsetS.get? src) (onsetS.get? dst)⟩ := by
  simp only [acceptEdge] at h
  split_ifs at h with h₁ h₂ h₃
  simp only [not_or, not_lt, Bool.not_eq_true, Bool.not_eq_false] at h₁ h₂ h₃
  exact ⟨h₁.1, h₂, h₃.1, (Option.some.inj h).symm⟩

lemma tooLate_eq_false {s d : ℚ} (h : tooLate (some s) (some d) = false) : s ≤ d + temporalTolS := by
  simpa only [tooLate, decide_eq_false_iff_not, not_lt] using h

lemma write_notMem_temporal (s d : Option ℚ) : Evidence.write ∉ temporalEvidence s d := by
  simp only [temporalEvidence]
  split_ifs <;> simp

lemma acceptEdge_not_source {src dst : Pod} {r : Coef} {lagS : ℤ} {profile : Profile}
    {w : Witness Pod} {onsetS : OrderedMap Pod ℚ} {e : Edge Pod}
    (h : acceptEdge src dst r lagS profile w onsetS = some e) : ¬ e.isSource := by
  obtain ⟨_, _, _, rfl⟩ := acceptEdge_spec h
  simp [Edge.isSource, w.write_notMem_kinds, write_notMem_temporal]

end AcceptEdge

end CausalEngine.Correlation
