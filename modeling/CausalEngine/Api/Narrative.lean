import CausalEngine.Api.Verdict

/-! The narrated verdict. A sentence of the language model is kept for as long as the signature of the verdict
stays the same; the resource that it names is not part of the signature. -/

namespace CausalEngine.Api

open Foundations Correlation Memory

def stateName : EdgeState → String
  | .active => "active"
  | .confirming => "confirming"
  | .decaying => "decaying"
  | .hidden => "hidden"
  | .steady => "steady"

structure Signature where
  root : Option String
  edges : List (String × String × Option EdgeState)
  case : Option Register
deriving DecidableEq

def shapeKey (e : String × String × Option EdgeState) : String ×ₗ String ×ₗ WithBot String :=
  toLex (e.1, toLex (e.2.1, (e.2.2.map stateName : Option String)))

/-- Sorting raises where two edges differ in that only one of them has a state. -/
def Sortable (shapes : List (String × String × Option EdgeState)) : Prop :=
  ∀ a ∈ shapes, ∀ b ∈ shapes, a.1 = b.1 → a.2.1 = b.2.1 → (a.2.2 = none ↔ b.2.2 = none)

instance (shapes : List (String × String × Option EdgeState)) : Decidable (Sortable shapes) := by
  unfold Sortable
  infer_instance

def verdictSignature (g : Verdict) : Option Signature :=
  let shapes := g.edges.map fun e => (e.src, e.dst, e.state)
  if Sortable shapes then
    some ⟨g.root.head?.map RootCause.pod, shapes.insertionSort fun a b => shapeKey a ≤ shapeKey b,
      g.verdictMeta.caseRegister⟩
  else none

structure Prompt where
  resource : String
  root : List (RootCause String)
  edges : List VerdictEdge
  blastRadius : List (Impact String)
  verdictMeta : VerdictMeta

inductive Teller
  | forecast | steady | llm | fallback
deriving DecidableEq

structure Narration where
  text : String
  source : Teller
  model : Option String
  ts : String
deriving DecidableEq

structure Call where
  verdict : Verdict
  reply : Prompt → Option String
  now : String

abbrev Cache := Option (Signature × Narration)

section Narrating

variable (cfg : ApiConfig)

def contended (g : Verdict) : Option String :=
  ((g.edges.find? fun e => some e.src = g.root.head?.map RootCause.pod ∧ e.signal.any (· ≠ "")).bind
    VerdictEdge.signal).or (metaSignal cfg g)

def signalResource : List (String × String) :=
  [("psi_io", "disk I/O"), ("psi_cpu", "CPU"), ("psi_mem", "memory")]

def prompt (g : Verdict) : Prompt where
  resource := ((contended cfg g).bind fun s => signalResource.lookup s).getD "resource"
  root := g.root
  edges := g.edges
  blastRadius := g.blastRadius
  verdictMeta := g.verdictMeta

def Cache.get (cache : Cache) (sig : Signature) : Option Narration :=
  (cache.filter fun entry => entry.1 = sig).map Prod.snd

def narrative (cache : Cache) (c : Call) : Cache × Option Narration :=
  let g := c.verdict
  if g.root = [] then
    (cache, some (if g.incipient ≠ [] then ⟨incipientText g.incipient, .forecast, none, c.now⟩
      else ⟨templateNarrative cfg g, .steady, none, c.now⟩))
  else
    match verdictSignature g with
    | none => (cache, none)
    | some sig =>
      let fc := if g.incipient ≠ [] then " " ++ incipientText g.incipient else ""
      match cache.get sig with
      | some n => (cache, some { n with text := n.text ++ fc })
      | none =>
        match (c.reply (prompt cfg g)).filter (· ≠ "") with
        | some text =>
          let out : Narration := ⟨text, .llm, some cfg.ollamaModel, c.now⟩
          (some (sig, out), some { out with text := out.text ++ fc })
        | none => (cache, some ⟨templateNarrative cfg g ++ fc, .fallback, none, c.now⟩)

def traced (st : Cache × Option Verdict) (c : Call) : (Cache × Option Verdict) × Option Narration :=
  let (cache, out) := narrative cfg st.1 c
  ((cache, if cache = st.1 then st.2 else some c.verdict), out)

def FromCache (cache : Cache) (c : Call) (n : Narration) : Prop :=
  c.verdict.root ≠ [] ∧ ∃ sig, verdictSignature c.verdict = some sig ∧ cache.get sig = some n

structure Uses (S : Set String) (g : Verdict) : Prop where
  tagged : ∀ e ∈ g.edges, ∀ s, e.signal = some s → s ∈ S
  labelled : ∃ s ∈ S, metaSignal cfg g = some s

end Narrating

section Origin

variable {cfg : ApiConfig}

lemma narrative_cache (cache : Cache) (c : Call) : (narrative cfg cache c).1 = cache ∨
    c.verdict.root ≠ [] ∧ ∃ sig n, verdictSignature c.verdict = some sig ∧ cache.get sig = none ∧
      (narrative cfg cache c).1 = some (sig, n) := by
  by_cases hroot : c.verdict.root = []
  · exact Or.inl (by simp [narrative, hroot])
  cases hsig : verdictSignature c.verdict with
  | none => exact Or.inl (by simp [narrative, hroot, hsig])
  | some sig =>
    cases hget : cache.get sig with
    | some n => exact Or.inl (by simp [narrative, hroot, hsig, hget])
    | none =>
      cases htext : (c.reply (prompt cfg c.verdict)).filter (· ≠ "") with
      | none => exact Or.inl (by simp only [narrative, if_neg hroot, hsig, hget, htext])
      | some text =>
        refine Or.inr ⟨hroot, sig, ⟨text, .llm, some cfg.ollamaModel, c.now⟩, rfl, hget, ?_⟩
        simp only [narrative, if_neg hroot, hsig, hget, htext]

def Attributed (P : Verdict → Prop) (st : Cache × Option Verdict) : Prop :=
  ∀ sig n, st.1 = some (sig, n) → ∃ g, st.2 = some g ∧ P g ∧ g.root ≠ [] ∧ verdictSignature g = some sig

lemma Attributed.step {P : Verdict → Prop} {st : Cache × Option Verdict} (h : Attributed P st) {c : Call}
    (hc : P c.verdict) : Attributed P (traced cfg st c).1 := by
  intro sig n hn
  have hcache : (traced cfg st c).1.1 = (narrative cfg st.1 c).1 := rfl
  have horigin : (traced cfg st c).1.2 =
    if (narrative cfg st.1 c).1 = st.1 then st.2 else some c.verdict := rfl
  rw [hcache] at hn
  rw [horigin]
  by_cases hkeep : (narrative cfg st.1 c).1 = st.1
  · rw [if_pos hkeep]
    exact h sig n (hkeep ▸ hn)
  · rw [if_neg hkeep]
    obtain ⟨hroot, sig', n', hsig, -, hnew⟩ := (narrative_cache st.1 c).resolve_left hkeep
    obtain ⟨rfl, rfl⟩ := Prod.mk.inj (Option.some.inj (hnew.symm.trans hn))
    exact ⟨c.verdict, rfl, hc, hroot, hsig⟩

lemma attributed_run {P : Verdict → Prop} {calls : List Call} (h : ∀ d ∈ calls, P d.verdict) :
    Attributed P (Runs.final (traced cfg) (none, none) calls) := by
  apply Runs.final_invariant (traced cfg) calls (by simp [Attributed])
  exact fun st hst c hc => hst.step (h c hc)

lemma cache_get {cache : Cache} {sig : Signature} {n : Narration} (h : cache.get sig = some n) :
    cache = some (sig, n) := by
  obtain ⟨⟨sig', n'⟩, hf, rfl⟩ := Option.map_eq_some_iff.mp h
  obtain ⟨hc, hsig⟩ := Option.filter_eq_some_iff.mp hf
  obtain rfl : sig' = sig := of_decide_eq_true hsig
  exact hc

lemma Uses.contended {S : Set String} {g : Verdict} (h : Uses cfg S g) : ∃ s ∈ S, contended cfg g = some s := by
  obtain ⟨s, hs, hmeta⟩ := h.labelled
  rw [Api.contended]
  cases hf : g.edges.find? fun e => some e.src = g.root.head?.map RootCause.pod ∧ e.signal.any (· ≠ "") with
  | none => exact ⟨s, hs, by simp [hmeta]⟩
  | some e =>
    cases he : e.signal with
    | none => exact ⟨s, hs, by simp [he, hmeta]⟩
    | some t => exact ⟨t, h.tagged e (List.mem_of_find?_eq_some hf) t he, by simp [he]⟩

lemma traced_cache (st : Cache × Option Verdict) (calls : List Call) :
    (Runs.final (traced cfg) st calls).1 = Runs.final (narrative cfg) st.1 calls := by
  induction calls generalizing st with
  | nil => rfl
  | cons c calls ih => exact ih (traced cfg st c).1

end Origin

section Relabelling

def relabel (s : String) (g : Verdict) : Verdict :=
  { g with
    edges := g.edges.map fun e => { e with signal := some s }
    verdictMeta := { g.verdictMeta with signal := some (some s) } }

variable {cfg : ApiConfig} {s : String} {g : Verdict}

lemma verdictSignature_relabel : verdictSignature (relabel s g) = verdictSignature g := by
  simp only [verdictSignature, relabel, List.map_map, Function.comp_def]

lemma contended_relabel : contended cfg (relabel s g) = some s := by
  have hmeta : metaSignal cfg (relabel s g) = some s := rfl
  rw [contended, hmeta]
  cases hf : (relabel s g).edges.find? fun e =>
    some e.src = (relabel s g).root.head?.map RootCause.pod ∧ e.signal.any (· ≠ "") with
  | none => rfl
  | some e =>
    obtain ⟨e', -, rfl⟩ := List.mem_map.mp (List.mem_of_find?_eq_some hf)
    rfl

lemma uses_relabel {S : Set String} (hs : s ∈ S) : Uses cfg S (relabel s g) := by
  refine ⟨?_, s, hs, rfl⟩
  intro e he t ht
  obtain ⟨e', -, rfl⟩ := List.mem_map.mp he
  exact Option.some.inj ht ▸ hs

end Relabelling

def stall : MemoryGraph where
  findings := [⟨"dcim-bridge-7c-z9", .burst, 60, 5, 1⟩]
  edges := [⟨⟨"log-archiver-5f-c3", "dcim-bridge-7c-z9", .tenths 9, 10, [.stat, .write]⟩,
    some ⟨4 / 10, .confirming, 1, .live, none, none⟩⟩]
  rootCauseRanking := [⟨"log-archiver-5f-c3", 1, none⟩]
  blastRadius := [⟨"dcim-bridge-7c-z9", 63 / 100, 10⟩]
  passMeta := ⟨2, 1, 1⟩
  heldEdges := 0
  caseVerdict := none
  stats := ⟨1, 0, 0, 0, 0⟩

def stallOn (signal : String) : Verdict := graph (mergeGraphs (.ofList [(signal, stall)]) (some "psi_io")) []

def ask (signal text : String) : Call := ⟨stallOn signal, fun _ => some text, "2026-01-01T00:00:00Z"⟩

section Soundness

variable (cfg : ApiConfig) (S : Set String)

def SignatureNames : Prop := ∀ g g', Uses cfg S g → Uses cfg S g' → g.root ≠ [] → g'.root ≠ [] →
  verdictSignature g ≠ none → verdictSignature g = verdictSignature g' → contended cfg g = contended cfg g'

def CacheNames : Prop := ∀ calls c n, (∀ d ∈ c :: calls, Uses cfg S d.verdict) →
  FromCache (Runs.final (narrative cfg) none calls) c n →
    ∃ g, (Runs.final (traced cfg) (none, none) calls).2 = some g ∧ contended cfg g = contended cfg c.verdict

variable {cfg S}

lemma contended_unique (hS : S.Subsingleton) {g g' : Verdict} (h : Uses cfg S g) (h' : Uses cfg S g') :
    contended cfg g = contended cfg g' := by
  obtain ⟨s, hs, hg⟩ := h.contended
  obtain ⟨t, ht, hg'⟩ := h'.contended
  rw [hg, hg', hS hs ht]

lemma cacheNames_of_subsingleton (hS : S.Subsingleton) : CacheNames cfg S := by
  intro calls c n huses hserved
  obtain ⟨-, sig, -, hget⟩ := hserved
  have hattr : Attributed (Uses cfg S) (Runs.final (traced cfg) (none, none) calls) :=
    attributed_run fun d hd => huses d (List.mem_cons_of_mem c hd)
  obtain ⟨g, hg, hu, -, -⟩ := hattr sig n (by rw [traced_cache]; exact cache_get hget)
  exact ⟨g, hg, contended_unique hS hu (huses c List.mem_cons_self)⟩

lemma narrative_generates {cache : Cache} {c : Call} {sig : Signature} {text : String} (hroot : c.verdict.root ≠ [])
    (hsig : verdictSignature c.verdict = some sig) (hget : cache.get sig = none)
    (htext : c.reply (prompt cfg c.verdict) = some text) (hne : text ≠ "") :
    (narrative cfg cache c).1 = some (sig, ⟨text, .llm, some cfg.ollamaModel, c.now⟩) := by
  have hfilter : (some text).filter (· ≠ "") = some text := by simp [Option.filter, hne]
  simp only [narrative, if_neg hroot, hsig, hget, htext, hfilter]

lemma served_after_relabel {g : Verdict} {sig : Signature} (hroot : g.root ≠ []) (hsig : verdictSignature g = some sig)
    (s t : String) : ∃ c d n, c.verdict = relabel s g ∧ d.verdict = relabel t g ∧
      FromCache (Runs.final (narrative cfg) none [c]) d n ∧
      (Runs.final (traced cfg) (none, none) [c]).2 = some (relabel s g) := by
  have hgen : (narrative cfg none ⟨relabel s g, fun _ => some "contention", ""⟩).1 =
      some (sig, ⟨"contention", .llm, some cfg.ollamaModel, ""⟩) :=
    narrative_generates hroot (verdictSignature_relabel.trans hsig) rfl rfl (by decide)
  refine ⟨⟨relabel s g, fun _ => some "contention", ""⟩, ⟨relabel t g, fun _ => none, ""⟩,
    ⟨"contention", .llm, some cfg.ollamaModel, ""⟩, rfl, rfl, ⟨hroot, sig, verdictSignature_relabel.trans hsig, ?_⟩, ?_⟩
  · rw [Runs.final, Runs.final, hgen]
    simp [Cache.get]
  · simp only [Runs.final, traced, hgen]
    rfl

lemma stallOn_signature : (stallOn "psi_io").root ≠ [] ∧ ∃ sig, verdictSignature (stallOn "psi_io") = some sig :=
  ⟨by decide +kernel, Option.isSome_iff_exists.mp (by decide +kernel)⟩

lemma subsingleton_of_signatureNames (h : SignatureNames cfg S) : S.Subsingleton := by
  intro s hs t ht
  obtain ⟨hroot, sig, hsig⟩ := stallOn_signature
  have hst := h (relabel s (stallOn "psi_io")) (relabel t (stallOn "psi_io")) (uses_relabel hs) (uses_relabel ht)
    hroot hroot (by simp [verdictSignature_relabel, hsig]) (by simp only [verdictSignature_relabel])
  rw [contended_relabel, contended_relabel] at hst
  exact Option.some.inj hst

lemma subsingleton_of_cacheNames (h : CacheNames cfg S) : S.Subsingleton := by
  intro s hs t ht
  obtain ⟨hroot, sig, hsig⟩ := stallOn_signature
  obtain ⟨c, d, n, hc, hd, hserved, horigin⟩ := @served_after_relabel cfg _ _ hroot hsig s t
  have huses : ∀ x ∈ [d, c], Uses cfg S x.verdict := by
    simp only [List.mem_cons, List.not_mem_nil, or_false, forall_eq_or_imp, forall_eq, hc, hd]
    exact ⟨uses_relabel ht, uses_relabel hs⟩
  obtain ⟨g, hg, hst⟩ := h [c] d n huses hserved
  obtain rfl := Option.some.inj (horigin.symm.trans hg)
  rw [hd, contended_relabel, contended_relabel] at hst
  exact Option.some.inj hst

end Soundness

/-- The signature names the contended resource exactly where a single signal is watched. -/
theorem narrative_names_iff (cfg : ApiConfig) (S : Set String) :
    (SignatureNames cfg S ↔ S.Subsingleton) ∧ (CacheNames cfg S ↔ S.Subsingleton) :=
  ⟨⟨subsingleton_of_signatureNames, fun hS _ _ hu hu' _ _ _ _ => contended_unique hS hu hu'⟩,
    ⟨subsingleton_of_cacheNames, cacheNames_of_subsingleton⟩⟩

theorem stale_narrative : (stallOn "psi_io").root ≠ [] ∧ (stallOn "psi_cpu").root ≠ [] ∧
    verdictSignature (stallOn "psi_io") ≠ none ∧
    verdictSignature (stallOn "psi_io") = verdictSignature (stallOn "psi_cpu") ∧
    contended {} (stallOn "psi_io") = some "psi_io" ∧ contended {} (stallOn "psi_cpu") = some "psi_cpu" ∧
    (Runs.outputs (narrative {}) none [ask "psi_io" "disk contention", ask "psi_cpu" "CPU contention"]).map
      (fun out => out.map Narration.text) = [some "disk contention", some "disk contention"] := by
  decide +kernel

end CausalEngine.Api
