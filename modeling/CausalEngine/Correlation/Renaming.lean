import CausalEngine.Correlation.EdgeGates
import Mathlib.Logic.Equiv.Basic

/-! A pass on renamed pods. The order of the names decides one thing only: which way an edge points
whose pair correlates equally well in both directions. -/

namespace CausalEngine.Correlation

open Foundations

variable {Pod Name : Type} [LinearOrder Pod] [LinearOrder Name] (S : Stats)

section Rename

variable (f : Pod → Name) (hf : Function.Injective f)

def Edge.rename (e : Edge Pod) : Edge Name := { e with src := f e.src, dst := f e.dst }

def PassGraph.rename (g : PassGraph Pod) : PassGraph Name where
  findings := g.findings.map fun d => { d with pod := f d.pod }
  edges := g.edges.map (Edge.rename f)
  rootCauseRanking := g.rootCauseRanking.map fun c => { c with pod := f c.pod }
  blastRadius := g.blastRadius.map fun b => { b with pod := f b.pod }
  passMeta := g.passMeta

def Witness.rename (w : Witness Pod) : Witness Name where
  ebpfEdges := w.ebpfEdges.map (Prod.map f f)
  psiCopressure := w.psiCopressure.map (Sym2.map f)
  sharedRelation := w.sharedRelation.map (Sym2.map f)
  sameNode := w.sameNode.map (Sym2.map f)

def PassInput.rename (i : PassInput Pod) : PassInput Name where
  vectors := i.vectors.mapKeys f hf
  witness := i.witness.rename f
  sloBreach := i.sloBreach.map f
  caps := i.caps.mapKeys f hf
  window := i.window
  writeVectors := i.writeVectors.mapKeys f hf
  baselines := i.baselines.map fun b => b.mapKeys f hf
  recent := i.recent

omit [LinearOrder Pod] [LinearOrder Name] in
lemma Edge.rename_injective {f : Pod → Name} (hf : Function.Injective f) :
    Function.Injective (Edge.rename f) := by
  intro d e h
  obtain ⟨hs, hd, hr, hl, hv⟩ := Edge.mk.inj h
  cases d
  cases e
  simp only at hs hd hr hl hv
  rw [hf hs, hf hd, hr, hl, hv]

end Rename

section Direction

def peaks (x y : Vec) : (ℤ × Coef) × (ℤ × Coef) :=
  let n := min x.length y.length
  (peakAbs (lagProfile S (takeLast n x) (takeLast n y)), peakAbs (lagProfile S (takeLast n y) (takeLast n x)))

def tied (x y : Vec) : Prop := |(|(peaks S x y).1.2.val| - |(peaks S x y).2.2.val|)| ≤ 1 / 10 ^ 9

instance (x y : Vec) : Decidable (tied S x y) := inferInstanceAs (Decidable (_ ≤ _))

lemma peaks_swap (x y : Vec) : peaks S y x = (peaks S x y).swap := by
  simp only [peaks, min_comm y.length, Prod.swap]

lemma tied_symm {x y : Vec} (h : tied S x y) : tied S y x := by
  rw [tied, peaks_swap, abs_sub_comm]
  exact h

lemma bestDirected_tied {x y : Vec} (h : tied S x y) : (bestDirected S x y).forward = true := by
  have hle := (abs_le.mp h).1
  have hn : ¬ |(peaks S x y).1.2.val| + 1 / 10 ^ 9 < |(peaks S x y).2.2.val| := by linarith
  simp only [peaks] at hn
  simp only [bestDirected, if_neg hn]

lemma bestDirected_swap {x y : Vec} (h : ¬ tied S x y) :
    bestDirected S y x = { bestDirected S x y with forward := !(bestDirected S x y).forward } := by
  have hlt : 1 / 10 ^ 9 < |(|(peaks S x y).1.2.val| - |(peaks S x y).2.2.val|)| := not_le.mp h
  simp only [peaks] at hlt
  simp only [bestDirected, min_comm y.length]
  rcases lt_abs.mp hlt with hpos | hneg
  · rw [if_pos (by linarith), if_neg (by linarith)]
    rfl
  · rw [if_neg (by linarith), if_pos (by linarith)]
    rfl

end Direction

namespace PassInput

section Equivariance

variable (f : Pod → Name) (hf : Function.Injective f) (i : PassInput Pod)

include hf in
lemma kinds_rename (w : Witness Pod) (a b : Pod) : (w.rename f).kinds (f a) (f b) = w.kinds a b := by
  have hpair : ∀ (l : List (Pod × Pod)) (a b : Pod), (f a, f b) ∈ l.map (Prod.map f f) ↔ (a, b) ∈ l :=
    fun l a b => List.mem_map_of_injective (hf.prodMap hf) (a := (a, b))
  have hsym : ∀ l : List (Sym2 Pod), s(f a, f b) ∈ l.map (Sym2.map f) ↔ s(a, b) ∈ l :=
    fun l => List.mem_map_of_injective (Sym2.map.injective hf) (a := s(a, b))
  simp only [Witness.kinds, Witness.rename, hpair, hsym]

include hf in
lemma couples_rename (w : Witness Pod) (a b : Pod) : (w.rename f).couples (f a) (f b) = w.couples a b := by
  rw [Witness.couples, kinds_rename f hf, Witness.couples]

lemma rawOnsetsOf_rename (p : Pod) (x : Vec) : (i.rename f hf).rawOnsetsOf (f p) x = i.rawOnsetsOf p x := by
  have hd : (i.rename f hf).deviates (f p) x = i.deviates p x := by
    simp only [deviates, rename]
    cases i.baselines with
    | none => rfl
    | some b =>
      simp only [Option.map_some, OrderedMap.get?_mapKeys]
      rfl
  simp only [rawOnsetsOf, hd]

lemma rawOnsets_rename : (i.rename f hf).rawOnsets = i.rawOnsets.mapKeys f hf := by
  have h : (fun p => (i.rename f hf).rawOnsetsOf (f p)) = i.rawOnsetsOf := by
    funext p x
    exact i.rawOnsetsOf_rename f hf p x
  rw [rawOnsets, rawOnsets, ← h]
  exact OrderedMap.filterMapVals_mapKeys f hf _ i.vectors

lemma centrePods_rename : (i.rename f hf).centrePods = i.centrePods.map f := by
  have hon : (i.rename f hf).onsetPods = i.onsetPods.map f := by
    simp only [onsetPods, rawOnsets_rename, OrderedMap.keys_mapKeys]
  have hco : (i.rename f hf).coupledPods = i.coupledPods.map f := by
    simp only [coupledPods, hon, List.filter_map, List.any_map]
    congr 1
    apply List.filter_congr
    intro p _
    have hw : ∀ q, (i.rename f hf).witness.couples (f p) (f q) = i.witness.couples p q :=
      fun q => couples_rename f hf i.witness p q
    simp only [Function.comp_apply, Function.comp_def, hf.ne_iff, hw]
  simp only [centrePods, hon, hco, List.map_eq_nil_iff]
  split_ifs <;> rfl

lemma centreIdx_rename : (i.rename f hf).centreIdx = i.centreIdx := by
  have hp : (i.rename f hf).peakOnset ∘ f = i.peakOnset := by
    funext p
    simp only [Function.comp_apply, peakOnset, rawOnsets_rename, OrderedMap.get?_mapKeys]
  have hs : (i.rename f hf).strength ∘ f = i.strength := by
    funext p
    simp only [Function.comp_apply, strength, ← hp]
  have hc : (i.rename f hf).centrePod = i.centrePod.map f := by
    rw [centrePod, centrePods_rename, argmax_map, hs, centrePod]
  rw [centreIdx, centreIdx, hc, Option.bind_map, hp]

lemma get?_onsetS_rename (p : Pod) : (i.rename f hf).onsetS.get? (f p) = i.onsetS.get? p := by
  simp only [onsetS, findings, OrderedMap.get?_mapVals, OrderedMap.get?_filterMapVals]
  have hv : (i.rename f hf).vectors.get? (f p) = i.vectors.get? p := by simp [rename]
  rw [hv]
  cases i.vectors.get? p with
  | none => rfl
  | some x =>
    have hc : (i.rename f hf).caps.get? (f p) = i.caps.get? p := by simp [rename]
    simp only [Option.bind_some, finding, rawOnsetsOf_rename, centreIdx_rename, hc]
    cases i.rawOnsetsOf p x with
    | none => rfl
    | some ons => simp only [Option.bind_some, Option.map_map, Function.comp_def]

lemma mem_active_iff {p : Pod} : p ∈ i.active ↔ (i.onsetS.get? p).isSome := by
  rw [active, OrderedMap.mem_keys, onsetS, OrderedMap.get?_mapVals, Option.isSome_map, Option.isSome_iff_exists]

lemma mem_active_rename (p : Pod) : f p ∈ (i.rename f hf).active ↔ p ∈ i.active := by
  rw [mem_active_iff, mem_active_iff, get?_onsetS_rename]

omit [LinearOrder Pod] [LinearOrder Name] in
lemma keys_rename : (i.rename f hf).vectors.keys = i.vectors.keys.map f := by simp [rename]

lemma disturbed_iff : i.disturbed = true ↔ ∃ p, p ∈ i.active := by
  simp only [disturbed, Bool.not_eq_true', List.isEmpty_eq_false_iff]
  exact ⟨List.exists_mem_of_ne_nil _, fun ⟨p, hp⟩ => List.ne_nil_of_mem hp⟩

lemma disturbed_rename : (i.rename f hf).disturbed = i.disturbed := by
  rw [Bool.eq_iff_iff, disturbed_iff, disturbed_iff]
  constructor
  · rintro ⟨q, hq⟩
    have hk := (i.rename f hf).mem_vectors_of_active hq
    rw [keys_rename] at hk
    obtain ⟨p, _, rfl⟩ := List.mem_map.mp hk
    exact ⟨p, (i.mem_active_rename f hf p).mp hq⟩
  · rintro ⟨p, hp⟩
    exact ⟨f p, (i.mem_active_rename f hf p).mpr hp⟩

lemma analysed_rename : (i.rename f hf).analysed = i.analysed := by
  funext x
  have hr : (i.rename f hf).ringLength = i.ringLength := by
    simp [ringLength, rename]
  simp only [analysed, sliceStart, centreIdx_rename, hr]
  rfl

lemma cvec_rename (p : Pod) : (i.rename f hf).cvec (f p) = i.cvec p := by
  have hv : (i.rename f hf).vectors.get? (f p) = i.vectors.get? p := by simp [rename]
  simp only [cvec, analysed_rename, hv]

lemma get?_writeCvec_rename (p : Pod) : (i.rename f hf).writeCvec.get? (f p) = i.writeCvec.get? p := by
  have hv : (i.rename f hf).writeVectors.get? (f p) = i.writeVectors.get? p := by simp [rename]
  simp only [writeCvec, OrderedMap.get?_mapVals, analysed_rename, hv]

lemma get?_writeOnsetS_rename (p : Pod) : (i.rename f hf).writeOnsetS.get? (f p) = i.writeOnsetS.get? p := by
  have hv : (i.rename f hf).writeVectors.get? (f p) = i.writeVectors.get? p := by simp [rename]
  simp only [writeOnsetS, OrderedMap.get?_filterMapVals, centreIdx_rename, hv]

lemma acceptEdge_rename (a b : Pod) (r : Coef) (lagS : ℤ) (prof : Profile) :
    acceptEdge (f a) (f b) r lagS prof (i.rename f hf).witness (i.rename f hf).onsetS =
      (acceptEdge a b r lagS prof i.witness i.onsetS).map (Edge.rename f) := by
  have hw : (i.rename f hf).witness = i.witness.rename f := rfl
  simp only [acceptEdge, get?_onsetS_rename, hw, couples_rename f hf, kinds_rename f hf]
  split_ifs <;> rfl

lemma psiEdge_rename (a b : Pod) : (i.rename f hf).psiEdge S (f a) (f b) =
    (i.psiEdge S a b).map (Edge.rename f) := by
  have hw : (i.rename f hf).witness.couples (f a) (f b) = i.witness.couples a b :=
    couples_rename f hf i.witness a b
  simp only [psiEdge, hw, mem_active_rename, disturbed_rename, cvec_rename, acceptEdge_rename]
  split_ifs <;> rfl

include hf in
lemma writerEdge_rename (w : Witness Pod) (a b : Pod) (x y : Vec) (s t : Option ℚ) :
    writerEdge S (f a) (f b) x y (w.rename f) s t = (writerEdge S a b x y w s t).map (Edge.rename f) := by
  simp only [writerEdge, kinds_rename f hf]
  cases (lagProfile S x y).entries.argmax fun e => e.2.val with
  | none => split_ifs <;> rfl
  | some p =>
    obtain ⟨lag, r⟩ := p
    dsimp only
    split_ifs <;> rfl

lemma sourceEdge_rename (w v : Pod) : (i.rename f hf).sourceEdge S (f w) (f v) =
    (i.sourceEdge S w v).map (Edge.rename f) := by
  have hr : (i.rename f hf).witness = i.witness.rename f := rfl
  have hc : (i.witness.rename f).couplesSource (f w) (f v) = i.witness.couplesSource w v := by
    rw [Witness.couplesSource, kinds_rename f hf, Witness.couplesSource]
  have ha : ∀ p, (i.rename f hf).writeAct (f p) = i.writeAct p := by
    intro p
    simp only [writeAct, get?_writeCvec_rename]
  have ho : f w ∈ (i.rename f hf).writeOnsetS.keys ↔ w ∈ i.writeOnsetS.keys := by
    simp only [OrderedMap.mem_keys, get?_writeOnsetS_rename]
  simp only [sourceEdge, ho, hf.eq_iff, hr, hc, mem_active_rename, ha, get?_writeCvec_rename,
    cvec_rename, get?_writeOnsetS_rename, get?_onsetS_rename, writerEdge_rename S f hf]
  split_ifs <;> rfl

lemma runPass_rename (h : [] ∉ i.writeCvec.values) :
    runPass S (i.rename f hf) = some ((i.rename f hf).passGraph S) := by
  have hv : (i.rename f hf).writeCvec.values = i.writeCvec.values := by
    simp only [writeCvec, analysed_rename]
    simp [rename, OrderedMap.values, OrderedMap.mapVals, OrderedMap.mapKeys, Function.comp_def]
  exact runPass_ok (hv ▸ h)

end Equivariance

section Ties

variable (i : PassInput Pod)

/-- No pair that ties, and that no source edge claims, gets past the gate in either orientation. -/
def tiesRejected : Prop :=
  ∀ a ∈ i.vectors.keys, ∀ b ∈ i.vectors.keys, a ≠ b → i.disturbed = true → tied S (i.cvec a) (i.cvec b) →
    i.sourceEdge S a b = none → i.sourceEdge S b a = none →
      let d := bestDirected S (i.cvec a) (i.cvec b)
      acceptEdge a b d.r d.lagS d.profile i.witness i.onsetS = none

lemma psiEdge_swap {a b : Pod} (h : ¬ tied S (i.cvec a) (i.cvec b)) :
    i.psiEdge S b a = i.psiEdge S a b := by
  simp only [psiEdge, bestDirected_swap S h, i.witness.couples_symm b a, and_left_comm (a := b ∉ i.active)]
  cases (bestDirected S (i.cvec a) (i.cvec b)).forward <;> simp

lemma psiEdge_tied {a b : Pod} (hd : i.disturbed = true) (h : tied S (i.cvec a) (i.cvec b)) :
    i.psiEdge S a b =
      let d := bestDirected S (i.cvec a) (i.cvec b)
      acceptEdge a b d.r d.lagS d.profile i.witness i.onsetS := by
  simp only [psiEdge, hd, bestDirected_tied S h, if_true, Bool.true_eq_false, and_false, if_false]
  split_ifs with hc
  · simp [acceptEdge, hc]
  · rfl

lemma psiEdge_disturbed {a b : Pod} {e : Edge Pod} (h : i.psiEdge S a b = some e) : i.disturbed = true := by
  by_contra hd
  rw [Bool.not_eq_true] at hd
  have hn : ∀ p, p ∉ i.active := by
    intro p hp
    rw [i.disturbed_iff.mpr ⟨p, hp⟩] at hd
    simp at hd
  simp [psiEdge, hd, hn] at h

lemma source_free {a b : Pod} : (∀ e ∈ i.sourceEdges S, e.pair ≠ s(a, b)) ↔
    i.sourceEdge S a b = none ∧ i.sourceEdge S b a = none := by
  constructor
  · intro h
    have hnone : ∀ x y, s(x, y) = s(a, b) → i.sourceEdge S x y = none := by
      intro x y hxy
      cases he : i.sourceEdge S x y with
      | none => rfl
      | some e =>
        obtain ⟨-, -, -, -, -, rfl, rfl, -⟩ := i.sourceEdge_spec S he
        exact (h e ((i.mem_sourceEdges S).mpr he) hxy).elim
    exact ⟨hnone a b rfl, hnone b a Sym2.eq_swap⟩
  · intro h e he hp
    have hs := (i.mem_sourceEdges S).mp he
    rcases Sym2.eq_iff.mp hp with ⟨ha, hb⟩ | ⟨ha, hb⟩
    · rw [ha, hb, h.1] at hs
      simp at hs
    · rw [ha, hb, h.2] at hs
      simp at hs

lemma mem_edges_unordered (h : i.tiesRejected S) {e : Edge Pod} : e ∈ i.edges S ↔
    i.sourceEdge S e.src e.dst = some e ∨ ∃ a b, a ∈ i.vectors.keys ∧ b ∈ i.vectors.keys ∧ a ≠ b ∧
      i.psiEdge S a b = some e ∧ i.sourceEdge S a b = none ∧ i.sourceEdge S b a = none := by
  rw [mem_edges, mem_sourceEdges, mem_psiEdges]
  constructor
  · rintro (hs | ⟨⟨a, b, ha, hb, hlt, he⟩, hno⟩)
    · exact Or.inl hs
    · rw [i.psiEdge_pair S he] at hno
      exact Or.inr ⟨a, b, ha, hb, hlt.ne, he, (i.source_free S).mp hno⟩
  · rintro (hs | ⟨a, b, ha, hb, hne, he, hno⟩)
    · exact Or.inl hs
    · have hfree := (i.source_free S).mpr hno
      rw [← i.psiEdge_pair S he] at hfree
      refine Or.inr ⟨?_, hfree⟩
      have hd := i.psiEdge_disturbed S he
      have hnt : ¬ tied S (i.cvec a) (i.cvec b) := by
        intro ht
        rw [i.psiEdge_tied S hd ht, h a ha b hb hne hd ht hno.1 hno.2] at he
        simp at he
      rcases lt_or_gt_of_ne hne with hlt | hlt
      · exact ⟨a, b, ha, hb, hlt, he⟩
      · exact ⟨b, a, hb, ha, hlt, (i.psiEdge_swap S hnt).trans he⟩

end Ties

section TiesRenamed

variable (f : Pod → Name) (hf : Function.Injective f) (i : PassInput Pod)

lemma tiesRejected_rename (h : i.tiesRejected S) : (i.rename f hf).tiesRejected S := by
  intro x hx y hy hne hd ht hxy hyx
  rw [keys_rename] at hx hy
  obtain ⟨a, ha, rfl⟩ := List.mem_map.mp hx
  obtain ⟨b, hb, rfl⟩ := List.mem_map.mp hy
  rw [sourceEdge_rename, Option.map_eq_none_iff] at hxy hyx
  rw [cvec_rename, cvec_rename] at ht
  rw [disturbed_rename] at hd
  have hn := h a ha b hb (fun hab => hne (congrArg f hab)) hd ht hxy hyx
  simp only at hn ⊢
  rw [cvec_rename, cvec_rename, acceptEdge_rename, hn]
  rfl

omit [LinearOrder Pod] in
lemma sourceEdge_rename_names {x y : Name} {e : Edge Name}
    (h : (i.rename f hf).sourceEdge S x y = some e) : ∃ a b, f a = x ∧ f b = y := by
  obtain ⟨hw, -, -, hv, -⟩ := (i.rename f hf).sourceEdge_spec S h
  have hv := (i.rename f hf).mem_vectors_of_active hv
  rw [keys_rename] at hv
  obtain ⟨b, -, hb⟩ := List.mem_map.mp hv
  have hw : x ∈ i.writeVectors.keys.map f := by
    rw [← OrderedMap.keys_mapKeys f hf]
    exact (i.rename f hf).mem_writeVectors_of_onset hw
  obtain ⟨a, -, ha⟩ := List.mem_map.mp hw
  exact ⟨a, b, ha, hb⟩

lemma mem_edges_rename (h : i.tiesRejected S) {e : Edge Name} :
    e ∈ (i.rename f hf).edges S ↔ ∃ d ∈ i.edges S, d.rename f = e := by
  rw [mem_edges_unordered S _ (i.tiesRejected_rename S f hf h)]
  simp only [mem_edges_unordered S i h, keys_rename]
  constructor
  · rintro (hs | ⟨x, y, hx, hy, hne, he, hxy, hyx⟩)
    · obtain ⟨a, b, ha, hb⟩ := i.sourceEdge_rename_names S f hf hs
      rw [← ha, ← hb, sourceEdge_rename] at hs
      obtain ⟨d, hd, hde⟩ := Option.map_eq_some_iff.mp hs
      obtain ⟨-, -, -, -, -, rfl, rfl, -⟩ := i.sourceEdge_spec S hd
      exact ⟨d, Or.inl hd, hde⟩
    · obtain ⟨a, ha, rfl⟩ := List.mem_map.mp hx
      obtain ⟨b, hb, rfl⟩ := List.mem_map.mp hy
      rw [psiEdge_rename] at he
      rw [sourceEdge_rename, Option.map_eq_none_iff] at hxy hyx
      obtain ⟨d, hd, hde⟩ := Option.map_eq_some_iff.mp he
      exact ⟨d, Or.inr ⟨a, b, ha, hb, fun hab => hne (congrArg f hab), hd, hxy, hyx⟩, hde⟩
  · rintro ⟨d, hs | ⟨a, b, ha, hb, hne, hd, hab, hba⟩, rfl⟩
    · refine Or.inl ?_
      simp only [Edge.rename]
      rw [sourceEdge_rename, hs]
      rfl
    · refine Or.inr ⟨f a, f b, List.mem_map_of_mem ha, List.mem_map_of_mem hb, hf.ne hne, ?_, ?_, ?_⟩
      · rw [psiEdge_rename, hd]
        rfl
      · rw [sourceEdge_rename, hab]
        rfl
      · rw [sourceEdge_rename, hba]
        rfl

end TiesRenamed

section Swapped

variable (i : PassInput Pod)

lemma psiEdge_tied_src {a b : Pod} {e : Edge Pod} (ht : tied S (i.cvec a) (i.cvec b))
    (he : i.psiEdge S a b = some e) : e.src = a := by
  rw [i.psiEdge_tied S (i.psiEdge_disturbed S he) ht] at he
  obtain ⟨-, -, -, rfl⟩ := acceptEdge_spec he
  rfl

lemma tied_edge_src {a b : Pod} {e : Edge Pod} (hlt : a < b) (ht : tied S (i.cvec a) (i.cvec b))
    (hab : i.sourceEdge S a b = none) (hba : i.sourceEdge S b a = none) (he : e ∈ i.edges S)
    (hp : e.pair = s(a, b)) : e.src = a := by
  rcases (i.mem_edges S).mp he with hs | ⟨hpsi, -⟩
  · exact ((i.source_free S).mpr ⟨hab, hba⟩ e hs hp).elim
  · obtain ⟨x, y, -, -, hxy, hpe⟩ := (i.mem_psiEdges S).mp hpsi
    rw [i.psiEdge_pair S hpe] at hp
    rcases Sym2.eq_iff.mp hp with ⟨rfl, rfl⟩ | ⟨rfl, rfl⟩
    · exact i.psiEdge_tied_src S ht hpe
    · exact (lt_asymm hlt hxy).elim

lemma mem_edges_of_psi {a b : Pod} {e : Edge Pod} (ha : a ∈ i.vectors.keys) (hb : b ∈ i.vectors.keys)
    (hlt : a < b) (hab : i.sourceEdge S a b = none) (hba : i.sourceEdge S b a = none)
    (he : i.psiEdge S a b = some e) : e ∈ i.edges S := by
  refine (i.mem_edges S).mpr (Or.inr ⟨(i.mem_psiEdges S).mpr ⟨a, b, ha, hb, hlt, he⟩, ?_⟩)
  rw [i.psiEdge_pair S he]
  exact (i.source_free S).mpr ⟨hab, hba⟩

lemma tie_not_equivariant {a b : Pod} {e : Edge Pod} (ha : a ∈ i.vectors.keys) (hb : b ∈ i.vectors.keys)
    (hlt : a < b) (ht : tied S (i.cvec a) (i.cvec b)) (hab : i.sourceEdge S a b = none)
    (hba : i.sourceEdge S b a = none) (he : i.psiEdge S a b = some e ∨ i.psiEdge S b a = some e) :
    ¬ ∀ d, d ∈ (i.rename (Equiv.swap a b) (Equiv.injective _)).edges S ↔
      ∃ c ∈ i.edges S, c.rename (Equiv.swap a b) = d := by
  intro h
  have hσ : Function.Injective (Equiv.swap a b) := Equiv.injective _
  have hca := i.cvec_rename _ hσ a
  have hcb := i.cvec_rename _ hσ b
  have hsa := i.sourceEdge_rename S _ hσ a b
  have hsb := i.sourceEdge_rename S _ hσ b a
  have hpb := i.psiEdge_rename S _ hσ b a
  simp only [Equiv.swap_apply_left, Equiv.swap_apply_right, hab, hba, Option.map_none] at hca hcb hsa hsb hpb
  have ht' : tied S ((i.rename _ hσ).cvec a) ((i.rename _ hσ).cvec b) := by
    rw [hca, hcb]
    exact tied_symm S ht
  rcases he with he | he
  · have hmem := i.mem_edges_of_psi S ha hb hlt hab hba he
    have hsrc := i.psiEdge_tied_src S ht he
    have hp : (e.rename (Equiv.swap a b)).pair = s(a, b) := by
      have hpair := congrArg (Sym2.map (Equiv.swap a b)) (i.psiEdge_pair S he)
      rw [Sym2.map_mk, Equiv.swap_apply_left, Equiv.swap_apply_right, Sym2.eq_swap] at hpair
      exact hpair
    have hfirst := (i.rename _ hσ).tied_edge_src S hlt ht' hsb hsa ((h _).mpr ⟨e, hmem, rfl⟩) hp
    simp only [Edge.rename, hsrc, Equiv.swap_apply_left] at hfirst
    exact hlt.ne hfirst.symm
  · rw [he, Option.map_some] at hpb
    have hk : ∀ p ∈ [a, b], p ∈ (i.rename _ hσ).vectors.keys := by
      intro p hp
      rw [keys_rename]
      rcases List.mem_pair.mp hp with rfl | rfl
      · exact List.mem_map.mpr ⟨b, hb, Equiv.swap_apply_right _ _⟩
      · exact List.mem_map.mpr ⟨a, ha, Equiv.swap_apply_left _ _⟩
    have hmem := (i.rename _ hσ).mem_edges_of_psi S (hk a (by simp)) (hk b (by simp)) hlt hsb hsa hpb
    obtain ⟨c, hc, hce⟩ := (h _).mp hmem
    obtain rfl := Edge.rename_injective hσ hce
    have hp : c.pair = s(a, b) := (i.psiEdge_pair S he).trans Sym2.eq_swap
    have hfirst := i.tied_edge_src S hlt ht hab hba hc hp
    exact hlt.ne (hfirst.symm.trans (i.psiEdge_tied_src S (tied_symm S ht) he))

end Swapped

end PassInput

open PassInput

theorem edges_equivariant_iff (i : PassInput Pod) (g : PassGraph Pod) (h : runPass S i = some g) :
    (∀ (f : Pod → Pod) (hf : Function.Injective f), ∃ g', runPass S (i.rename f hf) = some g' ∧
      ∀ e, e ∈ g'.edges ↔ ∃ d ∈ g.edges, d.rename f = e) ↔ i.tiesRejected S := by
  have hw := writeCvec_of_runPass h
  obtain rfl := runPass_eq h
  constructor
  · intro heq a ha b hb hne hd ht hab hba
    dsimp only
    by_contra hacc
    have hps := i.psiEdge_tied S hd ht
    obtain ⟨e, he⟩ := Option.ne_none_iff_exists'.mp hacc
    rw [he] at hps
    rcases lt_or_gt_of_ne hne with hlt | hlt
    · obtain ⟨g', hg', hedges⟩ := heq (Equiv.swap a b) (Equiv.injective _)
      obtain rfl := runPass_eq hg'
      exact i.tie_not_equivariant S ha hb hlt ht hab hba (Or.inl hps) hedges
    · obtain ⟨g', hg', hedges⟩ := heq (Equiv.swap b a) (Equiv.injective _)
      obtain rfl := runPass_eq hg'
      exact i.tie_not_equivariant S hb ha hlt (tied_symm S ht) hba hab (Or.inr hps) hedges
  · intro hrej f hf
    exact ⟨_, i.runPass_rename S f hf hw, fun e => i.mem_edges_rename S f hf hrej⟩

def relayedInput : PassInput String where
  vectors := .ofList [("cooling-monitor", stepVec 12 12), ("timescaledb", stepVec 13 11),
    ("dcim-bridge", List.replicate 24 0), ("power-monitor", List.replicate 24 0)]
  witness := ⟨[], [], [s("cooling-monitor", "timescaledb"), s("dcim-bridge", "power-monitor")], []⟩
  sloBreach := []
  caps := .empty
  window := none
  writeVectors := .empty
  baselines := none
  recent := none

theorem edges_equivariant_iff_echo :
    (relayedInput.disturbed = true ∧
      tied momentStats (relayedInput.cvec "dcim-bridge") (relayedInput.cvec "power-monitor") ∧
      (relayedInput.passGraph momentStats).edges.map (fun e => (e.src, e.dst)) = [("cooling-monitor", "timescaledb")]) ∧
    ∀ (f : String → String) (hf : Function.Injective f), ∃ g',
      runPass momentStats (relayedInput.rename f hf) = some g' ∧
        ∀ e, e ∈ g'.edges ↔ ∃ d ∈ (relayedInput.passGraph momentStats).edges, d.rename f = e := by
  refine ⟨⟨by decide +kernel, by decide +kernel, by decide +kernel⟩, ?_⟩
  have hrejected : relayedInput.tiesRejected momentStats := by
    dsimp only [tiesRejected]
    decide +kernel
  exact (edges_equivariant_iff momentStats relayedInput _ (runPass_ok (by decide +kernel))).mpr hrejected

def tieInput : PassInput String where
  vectors := .ofList [("cooling-monitor", stepVec 12 12), ("dcim-bridge", stepVec 12 12)]
  witness := ⟨[], [], [s("cooling-monitor", "dcim-bridge")], []⟩
  sloBreach := []
  caps := .empty
  window := none
  writeVectors := .empty
  baselines := none
  recent := none

def exchange : Equiv.Perm String := Equiv.swap "cooling-monitor" "dcim-bridge"

lemma pearson_symm (a b : Vec) : pearson a b = pearson b a := by
  have hc : covariance a b = covariance b a := by
    rw [covariance, covariance, List.zipWith_comm_of_comm mul_comm]
  simp only [pearson, hc, mul_comm (moment 2 a)]

lemma momentStats_symm {x y : Vec} (h : x.length = y.length) :
    corrAtLag momentStats x y 0 = corrAtLag momentStats y x 0 := by
  have hp : momentStats.pearsonr x y = momentStats.pearsonr y x := pearson_symm x y
  have hs : momentStats.spearmanr x y = momentStats.spearmanr y x := pearson_symm (ranks x) (ranks y)
  simp only [corrAtLag, Nat.sub_zero, List.take_length, List.drop_zero]
  rw [h, hp, hs]
  simp only [or_comm (a := momentStats.std x < _), or_comm (a := 2 < |momentStats.skew x|)]

theorem direction_from_names :
    (∀ x y : Vec, x.length = y.length → corrAtLag momentStats x y 0 = corrAtLag momentStats y x 0) ∧
      ∃ g g', runPass momentStats tieInput = some g ∧
        runPass momentStats (tieInput.rename exchange exchange.injective) = some g' ∧
        g.edges.map (fun e => (e.src, e.dst)) = [("cooling-monitor", "dcim-bridge")] ∧
        g'.edges.map (fun e => (e.src, e.dst)) = [("cooling-monitor", "dcim-bridge")] ∧
        ¬ ∀ e, e ∈ g'.edges ↔ ∃ d ∈ g.edges, d.rename exchange = e := by
  have hg : ((tieInput.passGraph momentStats).edges.map fun e => (e.src, e.dst)) =
      [("cooling-monitor", "dcim-bridge")] := by decide +kernel
  have hg' : (((tieInput.rename exchange exchange.injective).passGraph momentStats).edges.map fun e =>
      (e.src, e.dst)) = [("cooling-monitor", "dcim-bridge")] := by decide +kernel
  refine ⟨fun x y => momentStats_symm, _, _, runPass_ok (by decide +kernel), runPass_ok (by decide +kernel),
    hg, hg', ?_⟩
  intro h
  obtain ⟨d, hd, hde⟩ := List.mem_map.mp (hg ▸ List.mem_singleton_self _)
  have hmem := List.mem_map_of_mem (f := fun e : Edge String => (e.src, e.dst)) ((h _).mpr ⟨d, hd, rfl⟩)
  obtain ⟨hs, ht⟩ := Prod.mk.inj hde
  rw [hg', List.mem_singleton] at hmem
  simp only [Edge.rename, hs, ht] at hmem
  revert hmem
  decide +kernel

end CausalEngine.Correlation
