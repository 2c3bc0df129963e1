import Mathlib.Algebra.Order.Group.Abs
import Mathlib.Tactic

/-! Sample and hold. A series of timed points is read at the instants of a grid: the cursor moves on while
the next point is not too far ahead, and the point under it is taken if it is close enough. Which
instants get a value is a matter of the times alone. -/

namespace CausalEngine.Foundations

variable {K α : Type} [LinearOrder K]

def advance (bound : K) : List (K × α) → List (K × α)
  | p :: q :: rest => if q.1 ≤ bound then advance bound (q :: rest) else p :: q :: rest
  | l => l

lemma advance_spec (bound : K) {l : List (K × α)} (hl : l.Pairwise fun p q => p.1 ≤ q.1) (hne : l ≠ []) :
    ∃ passed h rest, advance bound l = h :: rest ∧ l = passed ++ h :: rest ∧
      (passed = [] ∨ h.1 ≤ bound) ∧ ∀ p ∈ rest, bound < p.1 := by
  induction l with
  | nil => exact (hne rfl).elim
  | cons p l ih =>
    cases l with
    | nil => exact ⟨[], p, [], rfl, rfl, Or.inl rfl, by simp⟩
    | cons q rest =>
      obtain ⟨-, hq⟩ := List.pairwise_cons.mp hl
      simp only [advance]
      split_ifs with hle
      · obtain ⟨passed, h, rest', hadv, hsplit, hpassed, hrest⟩ := ih hq (List.cons_ne_nil _ _)
        refine ⟨p :: passed, h, rest', hadv, by rw [hsplit]; rfl, Or.inr ?_, hrest⟩
        rcases hpassed with rfl | hh
        · obtain ⟨rfl, -⟩ := List.cons.inj hsplit
          exact hle
        · exact hh
      · refine ⟨[], p, q :: rest, rfl, rfl, Or.inl rfl, ?_⟩
        intro r hr
        rcases List.mem_cons.mp hr with rfl | hr
        · exact not_le.mp hle
        · exact (not_le.mp hle).trans_le ((List.pairwise_cons.mp hq).1 r hr)

variable [AddCommGroup K]

def sampleHold (ahead tol : K) : List (K × α) → List K → List (Option α)
  | _, [] => []
  | l, g :: gs =>
    let l := advance (g + ahead) l
    (l.head?.bind fun p => if |p.1 - g| ≤ tol then some p.2 else none) :: sampleHold ahead tol l gs

def lastBefore (bound : K) (l : List (K × α)) : Option (K × α) := (l.filter fun p => p.1 ≤ bound).getLast?

omit [AddCommGroup K] in
lemma cursor_point {bound : K} {passed rest : List (K × α)} {h : K × α}
    (hsorted : (passed ++ h :: rest).Pairwise fun p q => p.1 ≤ q.1) (hfirst : passed = [] ∨ h.1 ≤ bound)
    (hrest : ∀ p ∈ rest, bound < p.1) :
    (lastBefore bound (passed ++ h :: rest)).or (passed ++ h :: rest).head? = some h := by
  have hbeyond : rest.filter (fun p => p.1 ≤ bound) = [] := by
    simpa [List.filter_eq_nil_iff] using hrest
  by_cases hh : h.1 ≤ bound
  · have hpassed : passed.filter (fun p => p.1 ≤ bound) = passed := by
      rw [List.filter_eq_self]
      intro p hp
      exact decide_eq_true (((List.pairwise_append.mp hsorted).2.2 p hp h List.mem_cons_self).trans hh)
    rw [lastBefore, List.filter_append, hpassed, List.filter_cons_of_pos (by simpa using hh), hbeyond,
      List.getLast?_concat, Option.some_or]
  · obtain rfl := hfirst.resolve_right hh
    rw [lastBefore, List.nil_append, List.filter_cons_of_neg (by simpa using hh), hbeyond]
    rfl

lemma sampleHold_cursor [IsOrderedAddMonoid K] {ahead tol : K} {l : List (K × α)} {gs : List K}
    (hsorted : l.Pairwise fun p q => p.1 ≤ q.1) (hne : l ≠ []) (hgs : gs.Pairwise (· ≤ ·)) :
    sampleHold ahead tol l gs = gs.map fun g => ((lastBefore (g + ahead) l).or l.head?).bind fun p =>
      if |p.1 - g| ≤ tol then some p.2 else none := by
  suffices hs : ∀ (passed l : List (K × α)), (passed ++ l).Pairwise (fun p q => p.1 ≤ q.1) → l ≠ [] →
      (passed = [] ∨ ∀ h ∈ l.head?, ∀ g ∈ gs, h.1 ≤ g + ahead) →
      sampleHold ahead tol l gs = gs.map fun g => ((lastBefore (g + ahead) (passed ++ l)).or
        (passed ++ l).head?).bind fun p => if |p.1 - g| ≤ tol then some p.2 else none from
    hs [] l hsorted hne (Or.inl rfl)
  clear hsorted hne l
  induction gs with
  | nil => exact fun _ _ _ _ _ => rfl
  | cons g gs ih =>
    intro passed l hsorted hne hcursor
    obtain ⟨hg, hgs⟩ := List.pairwise_cons.mp hgs
    obtain ⟨skipped, h, rest, hadv, rfl, hskip, hrest⟩ :=
      advance_spec (g + ahead) (List.pairwise_append.mp hsorted).2.1 hne
    rw [← List.append_assoc] at hsorted ⊢
    have hfirst : passed ++ skipped = [] ∨ h.1 ≤ g + ahead := by
      rcases hskip with rfl | hle
      · rcases hcursor with rfl | hle
        · exact Or.inl rfl
        · exact Or.inr (hle h rfl g List.mem_cons_self)
      · exact Or.inr hle
    rw [sampleHold, hadv, List.map_cons, cursor_point hsorted hfirst hrest]
    congr 1
    apply ih hgs _ _ hsorted (List.cons_ne_nil _ _)
    refine hfirst.imp_right ?_
    intro hle d hd g' hg'
    obtain rfl := Option.some.inj hd
    exact hle.trans (add_le_add_left (hg g' hg') ahead)

def covers (ahead tol : K) (times : List K) (g : K) : Bool :=
  times.any (fun t => g - tol ≤ t && t ≤ g + ahead) ||
    (times.all (fun t => g + ahead < t) && times.any fun t => t ≤ g + tol)

section Covered

variable [IsOrderedAddMonoid K] {ahead tol : K} (h₀ : 0 ≤ ahead) (h₁ : ahead ≤ tol)
include h₀ h₁

lemma covers_cursor {passed rest : List (K × α)} {h : K × α} {g : K}
    (hsorted : (passed ++ h :: rest).Pairwise fun p q => p.1 ≤ q.1) (hfirst : passed = [] ∨ h.1 ≤ g + ahead)
    (hrest : ∀ p ∈ rest, g + ahead < p.1) :
    covers ahead tol ((passed ++ h :: rest).map Prod.fst) g = decide (|h.1 - g| ≤ tol) := by
  obtain ⟨-, hright, hleft⟩ := List.pairwise_append.mp hsorted
  have htol : 0 ≤ tol := h₀.trans h₁
  have hback : ∀ t, g + ahead < t → g - tol ≤ t := fun t ht =>
    (sub_le_self g htol).trans ((le_add_of_nonneg_right h₀).trans ht.le)
  rw [Bool.eq_iff_iff, decide_eq_true_eq, abs_sub_le_iff, sub_le_iff_le_add', sub_le_comm]
  simp only [covers, Bool.or_eq_true, Bool.and_eq_true, List.any_eq_true, List.all_eq_true, decide_eq_true_eq,
    List.mem_map, List.mem_append, List.mem_cons, forall_exists_index, and_imp, forall_apply_eq_imp_iff₂]
  constructor
  · rintro (⟨_, ⟨p, hp, rfl⟩, hlo, hhi⟩ | ⟨hall, _, ⟨p, hp, rfl⟩, hhi⟩)
    · have hph : p.1 ≤ h.1 := by
        rcases hp with hp | rfl | hp
        · exact hleft p hp h List.mem_cons_self
        · exact le_rfl
        · exact absurd hhi (not_le.mpr (hrest p hp))
      refine ⟨?_, hlo.trans hph⟩
      rcases hfirst with rfl | hh
      · rcases hp with hp | rfl | hp
        · simp at hp
        · exact hhi.trans (add_le_add_right h₁ g)
        · exact absurd hhi (not_le.mpr (hrest p hp))
      · exact hh.trans (add_le_add_right h₁ g)
    · have hh : g + ahead < h.1 := hall h (Or.inr (Or.inl rfl))
      refine ⟨?_, hback _ hh⟩
      rcases hfirst with rfl | hle
      · rcases hp with hp | rfl | hp
        · simp at hp
        · exact hhi
        · exact ((List.pairwise_cons.mp hright).1 p hp).trans hhi
      · exact absurd hle (not_le.mpr hh)
  · rintro ⟨hhi, hlo⟩
    by_cases hh : h.1 ≤ g + ahead
    · exact Or.inl ⟨h.1, ⟨h, Or.inr (Or.inl rfl), rfl⟩, hlo, hh⟩
    · obtain rfl := hfirst.resolve_right hh
      refine Or.inr ⟨?_, h.1, ⟨h, Or.inr (Or.inl rfl), rfl⟩, hhi⟩
      rintro p (hp | rfl | hp)
      · simp at hp
      · exact not_le.mp hh
      · exact hrest p hp

lemma sampleHold_flat {v : α} {l : List (K × α)} {gs : List K} (hsorted : l.Pairwise fun p q => p.1 ≤ q.1)
    (hflat : ∀ p ∈ l, p.2 = v) (hne : l ≠ []) (hgs : gs.Pairwise (· ≤ ·)) :
    sampleHold ahead tol l gs = gs.map fun g => if covers ahead tol (l.map Prod.fst) g then some v else none := by
  rw [sampleHold_cursor hsorted hne hgs]
  apply List.map_congr_left
  intro g _
  obtain ⟨passed, h, rest, -, rfl, hfirst, hrest⟩ := advance_spec (g + ahead) hsorted hne
  rw [covers_cursor h₀ h₁ hsorted hfirst hrest, cursor_point hsorted hfirst hrest, Option.bind_some,
    hflat h (List.mem_append_right _ List.mem_cons_self)]
  simp

end Covered

end CausalEngine.Foundations
