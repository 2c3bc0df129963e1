import CausalEngine.Api.Narrative
import Mathlib.Data.List.Chain

/-! The dashboard asks for the narrative every few seconds. Over any sequence of requests the sentences of the language
model that are served are its own, for the verdict's own signature, and a new one is kept only on a change. -/

namespace CausalEngine.Api

open Foundations Correlation Memory

section Runs

variable (cfg : ApiConfig)

def forecastSuffix (g : Verdict) : String := if g.incipient ≠ [] then " " ++ incipientText g.incipient else ""

structure Wrote (d : Call) (sig : Signature) (text : String) : Prop where
  rooted : d.verdict.root ≠ []
  signature : verdictSignature d.verdict = some sig
  reply : d.reply (prompt cfg d.verdict) = some text
  nonempty : text ≠ ""

def generations (cache : Cache) : List Call → List Signature
  | [] => []
  | c :: calls =>
    let next := (narrative cfg cache c).1
    (if next = cache then [] else (next.map Prod.fst).toList) ++ generations next calls

variable {cfg}

lemma get_of_ne {sig sig' : Signature} {n : Narration} (h : Cache.get (some (sig', n)) sig = none) : sig' ≠ sig := by
  rintro rfl
  simp [Cache.get] at h

lemma narrative_cases (cache : Cache) (c : Call) :
    ((narrative cfg cache c).1 = cache ∧ ∀ n ∈ (narrative cfg cache c).2, n.source ≠ .llm) ∨
    (∃ sig n, verdictSignature c.verdict = some sig ∧ cache = some (sig, n) ∧
      narrative cfg cache c = (cache, some { n with text := n.text ++ forecastSuffix c.verdict })) ∨
    ∃ sig text, cache.get sig = none ∧ Wrote cfg c sig text ∧
      narrative cfg cache c = (some (sig, ⟨text, .llm, some cfg.ollamaModel, c.now⟩),
        some ⟨text ++ forecastSuffix c.verdict, .llm, some cfg.ollamaModel, c.now⟩) := by
  by_cases hroot : c.verdict.root = []
  · refine Or.inl ⟨by simp [narrative, hroot], ?_⟩
    simp only [narrative, hroot, if_true, Option.mem_def, Option.some.injEq, forall_eq']
    split_ifs <;> exact Teller.noConfusion
  cases hsig : verdictSignature c.verdict with
  | none => exact Or.inl (by simp [narrative, hroot, hsig])
  | some sig =>
    cases hget : cache.get sig with
    | some n =>
      refine Or.inr (Or.inl ⟨sig, n, rfl, cache_get hget, ?_⟩)
      simp only [narrative, if_neg hroot, hsig, hget]
      rfl
    | none =>
      cases htext : (c.reply (prompt cfg c.verdict)).filter (· ≠ "") with
      | none =>
        refine Or.inl ⟨by simp only [narrative, if_neg hroot, hsig, hget, htext], ?_⟩
        simp only [narrative, if_neg hroot, hsig, hget, htext, Option.mem_def, Option.some.injEq, forall_eq']
        exact Teller.noConfusion
      | some text =>
        obtain ⟨hreply, hne⟩ := Option.filter_eq_some_iff.mp htext
        refine Or.inr (Or.inr ⟨sig, text, hget, ⟨hroot, hsig, hreply, of_decide_eq_true hne⟩, ?_⟩)
        simp only [narrative, if_neg hroot, hsig, hget, htext]
        rfl

def Held (cfg : ApiConfig) (calls : List Call) (cache : Cache) : Prop :=
  ∀ sig n, cache = some (sig, n) → ∃ d ∈ calls, ∃ text, Wrote cfg d sig text ∧
    n = ⟨text, .llm, some cfg.ollamaModel, d.now⟩

lemma held_step {calls : List Call} {cache : Cache} (h : Held cfg calls cache) {c : Call} (hc : c ∈ calls) :
    Held cfg calls (narrative cfg cache c).1 := by
  rcases narrative_cases cache c with ⟨hkeep, -⟩ | ⟨sig, n, -, -, heq⟩ | ⟨sig, text, -, hwrote, heq⟩
  · rwa [hkeep]
  · rwa [heq]
  · rw [heq]
    intro sig' n' hn
    obtain ⟨rfl, rfl⟩ := Prod.mk.inj (Option.some.inj hn)
    exact ⟨c, hc, text, hwrote, rfl⟩

lemma held_run (calls : List Call) : Held cfg calls (Runs.final (narrative cfg) none calls) := by
  apply Runs.final_invariant (narrative cfg) calls
  · exact fun sig n h => absurd h (by simp)
  · exact fun cache h c hc => held_step h hc

lemma generations_chain (cache : Cache) (calls : List Call) :
    ((cache.map Prod.fst).toList ++ generations cfg cache calls).IsChain (· ≠ ·) := by
  induction calls generalizing cache with
  | nil => cases cache <;> simp [generations]
  | cons c calls ih =>
    have hrest := ih (narrative cfg cache c).1
    rw [generations]
    by_cases hkeep : (narrative cfg cache c).1 = cache
    · rw [if_pos hkeep, List.nil_append]
      rwa [hkeep] at hrest ⊢
    · rcases narrative_cases cache c with ⟨hsame, -⟩ | ⟨sig, n, -, -, heq⟩ | ⟨sig, text, hget, -, heq⟩
      · exact absurd hsame hkeep
      · exact absurd (by rw [heq]) hkeep
      · rw [if_neg hkeep]
        rw [heq] at hrest ⊢
        cases cache with
        | none => exact hrest
        | some old =>
          have hne : old.1 ≠ _ := get_of_ne hget
          exact List.IsChain.cons_cons hne hrest

end Runs

end CausalEngine.Api
