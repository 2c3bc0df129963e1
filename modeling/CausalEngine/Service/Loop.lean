import CausalEngine.Foundations.Components
import CausalEngine.Memory.FailedPass
import CausalEngine.Memory.Merge
import CausalEngine.Memory.Production
import CausalEngine.Service.Alerts

/-! The loop of the service: poll, one pass and one observation per signal, merge, early warning. Whatever raises ends
the poll: a reply that cannot be fetched or parsed before any memory is touched, a pass at one of its statements, the
merge or the early warning when all memories are committed. -/

namespace CausalEngine.Service

open Foundations Correlation Memory Components

/-- What the aggregator replies, when each signal is observed and rendered, after how many statements the pass of a
signal raises, and whether the merge or the early warning does. -/
structure Reply where
  window : Window
  events : List SignalEvent
  ts : String → ℚ
  now : String → ℚ
  stop : String → Option ℕ
  late : Bool

inductive Served
  | error
  | graph (merged : Option MergedGraph) (incipient : List Incipient)

-- only the disk has a coupling topology to keep a backbone for
def memoryConfig (env : MemoryConfig) (signal : String) : MemoryConfig :=
  if signal = "psi_io" then { env with signal := signal }
  else { env with signal := signal, prior := 0, floorFrac := 0 }

section Loop

variable (S : Stats) (F : LineFit) (digest : CaseKey → String) (cfg : LoopConfig) (env : MemoryConfig)

def bootGraph (memory : String → Connection Db) : MergedGraph :=
  mergeGraphs (.ofList (cfg.signals.map fun s => (s, bootstrapGraph (memoryConfig env s) (memory s).current)))
    cfg.signals.head?

-- a pass that raises outside of `observe` has written nothing, or everything
def passSignal (reply : Reply) (signal : String) (c : Connection Db) : Connection Db × Outcome MemoryGraph :=
  match signalObservation S cfg (memoryConfig env signal) c.current reply.window (reply.ts signal) (reply.now signal)
    reply.events with
  | none => (c, .silent)
  | some o => (runPassOn digest (memoryConfig env signal) c ⟨o, reply.stop signal⟩,
      if (reply.stop signal).isSome then .raised
      else .value (observe digest (memoryConfig env signal) c.current o).2)

-- without a graph of any signal, an empty one is served
def serve (reply : Reply) (rendered : OrderedMap String MemoryGraph) : Served :=
  .graph (if rendered.entries = [] then none else some (mergeGraphs rendered cfg.signals.head?))
    (oomWarnings cfg.toServiceConfig F reply.window (reply.events.map SignalEvent.toEvent))

def poll (memory : String → Connection Db) : Option Reply → (String → Connection Db) × Served
  | none => (memory, .error)
  | some reply =>
    let (memory, rendered) := stepUntil (passSignal S digest cfg env reply) memory .empty cfg.signals
    (memory, rendered.elim .error fun rendered => if reply.late then .error else serve F cfg reply rendered)

end Loop

section Decomposition

variable (S : Stats) (F : LineFit) (digest : CaseKey → String) (cfg : LoopConfig) (env : MemoryConfig)

def Reply.raises (reply : Reply) (signal : String) : Bool := (reply.stop signal).isSome &&
  (signalInput cfg (memoryConfig env signal) .empty reply.window reply.events).vectors.entries ≠ []

def Reply.visits (reply : Reply) : List String := reached (reply.raises cfg env) cfg.signals

def aloneAfter (signal : String) (c : Connection Db) (replies : List Reply) : Connection Db :=
  Runs.final (fun c reply => passSignal S digest cfg env reply signal c) c replies

def reaching (signal : String) (polls : List (Option Reply)) : List Reply :=
  polls.reduceOption.filter fun reply => signal ∈ reply.visits cfg env

def renderedAfter (memory : String → Connection Db) (past : List (Option Reply)) (reply : Reply) :
    List (String × MemoryGraph) :=
  cfg.signals.filterMap fun signal => (passSignal S digest cfg env reply signal
    (aloneAfter S digest cfg env signal (memory signal) (reaching cfg env signal past))).2.value?.map (signal, ·)

/-- What the loop comes to, signal by signal. -/
structure Decomposed (memory : String → Connection Db) (polls : List (Option Reply)) : Prop where
  memories : ∀ signal, Runs.final (poll S F digest cfg env) memory polls signal =
    aloneAfter S digest cfg env signal (memory signal) (reaching cfg env signal polls)
  others : ∀ signal, signal ∉ cfg.signals → Runs.final (poll S F digest cfg env) memory polls signal = memory signal
  passes : ∀ signal, ∃ ps : List Pass, (∀ p ∈ ps, FromPass S p.obs ∧ ∃ reply ∈ reaching cfg env signal polls,
    p.stop = reply.stop signal) ∧ Runs.final (poll S F digest cfg env) memory polls signal =
      ps.foldl (runPassOn digest (memoryConfig env signal)) (memory signal)
  undisturbed : ∀ signal, (memory signal).committed = (memory signal).current →
    (∀ reply ∈ reaching cfg env signal polls, reply.stop signal = none) → ∃ os : List Observation,
      (∀ o ∈ os, FromPass S o) ∧
        let db := Runs.final (observe digest (memoryConfig env signal)) (memory signal).current os
        Runs.final (poll S F digest cfg env) memory polls signal = ⟨db, db⟩
  served : ∀ past p, past ++ [p] <+: polls → (Runs.outputs (poll S F digest cfg env) memory polls)[past.length]? =
    some (p.elim .error fun reply => if cfg.signals.any (reply.raises cfg env) ∨ reply.late = true then .error
      else serve F cfg reply (.ofList (renderedAfter S digest cfg env memory past reply)))

variable {S F digest cfg env}

lemma signalObservation_none {mc : MemoryConfig} {db : Db} {window : Window} {ts now : ℚ}
    {events : List SignalEvent} : signalObservation S cfg mc db window ts now events = none ↔
      (signalInput cfg mc .empty window events).vectors.entries = [] := by
  have hsame : (signalInput cfg mc db window events).vectors = (signalInput cfg mc .empty window events).vectors := rfl
  rw [signalObservation, Option.map_eq_none_iff, signalPass_eq, hsame]
  split_ifs with h
  · exact iff_of_true rfl h
  · exact iff_of_false (by simp) h

lemma passSignal_raised (reply : Reply) (signal : String) (c : Connection Db) :
    (passSignal S digest cfg env reply signal c).2.isRaised = reply.raises cfg env signal := by
  rw [passSignal, Reply.raises]
  cases ho : signalObservation S cfg (memoryConfig env signal) c.current reply.window (reply.ts signal)
      (reply.now signal) reply.events with
  | none => simp [signalObservation_none.mp ho, Outcome.isRaised]
  | some o =>
    have hseries : (signalInput cfg (memoryConfig env signal) .empty reply.window
        reply.events).vectors.entries ≠ [] := by
      intro hnil
      rw [signalObservation_none.mpr hnil] at ho
      cases ho
    cases hs : reply.stop signal <;> simp [hseries, Outcome.isRaised]

lemma poll_eq (h : cfg.signals.Nodup) (memory : String → Connection Db) (reply : Reply) :
    poll S F digest cfg env memory (some reply) =
      (fun s => if s ∈ reply.visits cfg env then (passSignal S digest cfg env reply s (memory s)).1 else memory s,
        if cfg.signals.any (reply.raises cfg env) ∨ reply.late = true then .error
        else serve F cfg reply (.ofList (emitted (passSignal S digest cfg env reply) memory cfg.signals))) := by
  rw [poll, stepUntil_eq _ (passSignal_raised reply) h]
  refine Prod.ext rfl ?_
  by_cases hany : cfg.signals.any (reply.raises cfg env) = true
  · simp [hany]
  · simp only [hany, Bool.false_eq_true, if_false, Option.elim_some, false_or]
    rfl

lemma final_polls (memory : String → Connection Db) (polls : List (Option Reply)) :
    Runs.final (poll S F digest cfg env) memory polls =
      Runs.final (fun memory reply => poll S F digest cfg env memory (some reply)) memory polls.reduceOption := by
  induction polls generalizing memory with
  | nil => rfl
  | cons p polls ih =>
    cases p with
    | none => exact ih memory
    | some reply => exact ih _

lemma final_signal (h : cfg.signals.Nodup) (memory : String → Connection Db) (polls : List (Option Reply))
    (signal : String) : Runs.final (poll S F digest cfg env) memory polls signal =
      aloneAfter S digest cfg env signal (memory signal) (reaching cfg env signal polls) := by
  rw [final_polls]
  exact final_apply (fun memory reply => congrArg Prod.fst (poll_eq h memory reply)) memory _ signal

lemma reaching_unconfigured {signal : String} (hs : signal ∉ cfg.signals) (polls : List (Option Reply)) :
    reaching cfg env signal polls = [] := by
  rw [reaching, List.filter_eq_nil_iff]
  intro reply _ hvisits
  exact hs (reached_subset (of_decide_eq_true hvisits))

lemma passSignal_runs (reply : Reply) (signal : String) (c : Connection Db) :
    (passSignal S digest cfg env reply signal c).1 = c ∨ ∃ o, FromPass S o ∧
      (passSignal S digest cfg env reply signal c).1 =
        runPassOn digest (memoryConfig env signal) c ⟨o, reply.stop signal⟩ := by
  rw [passSignal]
  cases ho : signalObservation S cfg (memoryConfig env signal) c.current reply.window (reply.ts signal)
      (reply.now signal) reply.events with
  | none => exact Or.inl rfl
  | some o =>
    refine Or.inr ⟨o, ?_, rfl⟩
    obtain ⟨g, hg, rfl⟩ := Option.map_eq_some_iff.mp ho
    rw [signalPass] at hg
    split_ifs at hg
    exact ⟨_, hg, rfl, rfl⟩

variable (S digest cfg env) in
lemma alone_passes (signal : String) (c : Connection Db) (replies : List Reply) : ∃ ps : List Pass,
    (∀ p ∈ ps, FromPass S p.obs ∧ ∃ reply ∈ replies, p.stop = reply.stop signal) ∧
      aloneAfter S digest cfg env signal c replies = ps.foldl (runPassOn digest (memoryConfig env signal)) c := by
  induction replies generalizing c with
  | nil => exact ⟨[], by simp, rfl⟩
  | cons reply replies ih =>
    obtain ⟨ps, hps, hfinal⟩ := ih (passSignal S digest cfg env reply signal c).1
    have hlater : ∀ p ∈ ps, FromPass S p.obs ∧ ∃ r ∈ reply :: replies, p.stop = r.stop signal := by
      intro p hp
      obtain ⟨hpass, r, hr, hstop⟩ := hps p hp
      exact ⟨hpass, r, List.mem_cons_of_mem _ hr, hstop⟩
    rw [aloneAfter, Runs.final, ← aloneAfter, hfinal]
    rcases passSignal_runs reply signal c with hsame | ⟨o, ho, hrun⟩
    · exact ⟨ps, hlater, by rw [hsame]⟩
    · refine ⟨⟨o, reply.stop signal⟩ :: ps, List.forall_mem_cons.mpr ⟨⟨ho, reply, ?_, rfl⟩, hlater⟩, by rw [hrun]; rfl⟩
      exact List.mem_cons_self

lemma passes_observe {mc : MemoryConfig} {c : Connection Db} (hc : c.committed = c.current) {ps : List Pass}
    (h : ∀ p ∈ ps, p.stop = none) : ps.foldl (runPassOn digest mc) c =
      ⟨Runs.final (observe digest mc) c.current (ps.map Pass.obs),
        Runs.final (observe digest mc) c.current (ps.map Pass.obs)⟩ := by
  induction ps generalizing c with
  | nil =>
    obtain ⟨s, t⟩ := c
    obtain rfl : s = t := hc
    rfl
  | cons p ps ih =>
    obtain ⟨⟨o, stop⟩, rfl⟩ : ∃ q, q = p := ⟨p, rfl⟩
    obtain ⟨rfl, hps⟩ := List.forall_mem_cons.mp h
    rw [List.foldl_cons, runPassOn_complete, ih rfl hps]
    rfl

lemma outputs_length (memory : String → Connection Db) (polls : List (Option Reply)) :
    (Runs.outputs (poll S F digest cfg env) memory polls).length = polls.length := by
  induction polls generalizing memory with
  | nil => rfl
  | cons p polls ih => exact congrArg (· + 1) (ih _)

lemma output_at (memory : String → Connection Db) (past rest : List (Option Reply)) (p : Option Reply) :
    (Runs.outputs (poll S F digest cfg env) memory (past ++ [p] ++ rest))[past.length]? =
      some (poll S F digest cfg env (Runs.final (poll S F digest cfg env) memory past) p).2 := by
  rw [List.append_assoc, Runs.outputs_append, List.getElem?_append_right (by rw [outputs_length]), outputs_length,
    Nat.sub_self, List.singleton_append, Runs.outputs, List.getElem?_cons_zero]

lemma emitted_after (h : cfg.signals.Nodup) (memory : String → Connection Db) (past : List (Option Reply))
    (reply : Reply) : emitted (passSignal S digest cfg env reply) (Runs.final (poll S F digest cfg env) memory past)
      cfg.signals = renderedAfter S digest cfg env memory past reply := by
  apply List.filterMap_congr
  intro signal _
  rw [final_signal h]

end Decomposition

/-- The loop is, signal by signal, a memory of its own that carries out the passes of the polls that reach it, each as
far as it gets; a poll that cannot be fetched leaves no trace in it. What is served is the merge of what these memories
render, or an error where anything raises. -/
theorem loop_decomposes (S : Stats) (F : LineFit) (digest : CaseKey → String) (cfg : LoopConfig) (env : MemoryConfig)
    (h : cfg.signals.Nodup) (memory : String → Connection Db) (polls : List (Option Reply)) :
    Decomposed S F digest cfg env memory polls where
  memories := final_signal h memory polls
  others signal hs := by
    rw [final_signal h, reaching_unconfigured hs]
    rfl
  passes signal := by
    obtain ⟨ps, hps, hfinal⟩ := alone_passes S digest cfg env signal (memory signal)
      (reaching cfg env signal polls)
    exact ⟨ps, hps, (final_signal h memory polls signal).trans hfinal⟩
  undisturbed signal hc hstop := by
    obtain ⟨ps, hps, hfinal⟩ := alone_passes S digest cfg env signal (memory signal)
      (reaching cfg env signal polls)
    have hnone : ∀ p ∈ ps, p.stop = none := by
      intro p hp
      obtain ⟨-, reply, hreply, hsame⟩ := hps p hp
      exact hsame.trans (hstop reply hreply)
    refine ⟨ps.map Pass.obs, fun o ho => ?_, ?_⟩
    · obtain ⟨p, hp, rfl⟩ := List.mem_map.mp ho
      exact (hps p hp).1
    · rw [final_signal h, hfinal, passes_observe hc hnone]
  served past p := by
    rintro ⟨rest, rfl⟩
    rw [output_at]
    cases p with
    | none => rfl
    | some reply => rw [poll_eq h, emitted_after h, Option.elim_some]

def calmReply : Reply := ⟨calmWindow, [], fun _ => 0, fun _ => 0, fun _ => none, false⟩

def brokenReply : Reply := { calmReply with stop := fun s => if s = "psi_io" then some 2 else none }

lemma broken_visits : brokenReply.visits {} {} = ["psi_io"] ∧ calmReply.visits {} {} = ({} : LoopConfig).signals ∧
    ({} : LoopConfig).signals.any (brokenReply.raises {} {}) = true := by
  have hraises : brokenReply.raises {} {} "psi_io" = true := by
    rw [Reply.raises, show signalInput {} (memoryConfig {} "psi_io") .empty brokenReply.window brokenReply.events =
      signalInput {} {} .empty calmWindow [] from rfl, calm_vectors]
    rfl
  refine ⟨?_, reached_all fun _ _ => rfl, List.any_eq_true.mpr ⟨"psi_io", by decide, hraises⟩⟩
  rw [Reply.visits, show ({} : LoopConfig).signals = "psi_io" :: ({} : LoopConfig).signals.tail from rfl, reached,
    if_pos hraises]

theorem loop_decomposes_outage :
    let run := [some calmReply, none, some brokenReply, some calmReply]
    Runs.final (poll momentStats exactFit (fun _ => "c0") {} {}) (fun _ => ⟨.empty, .empty⟩) run "psi_io" =
        aloneAfter momentStats (fun _ => "c0") {} {} "psi_io" ⟨.empty, .empty⟩ [calmReply, brokenReply, calmReply] ∧
      Runs.final (poll momentStats exactFit (fun _ => "c0") {} {}) (fun _ => ⟨.empty, .empty⟩) run "psi_cpu" =
        aloneAfter momentStats (fun _ => "c0") {} {} "psi_cpu" ⟨.empty, .empty⟩ [calmReply, calmReply] ∧
      (Runs.outputs (poll momentStats exactFit (fun _ => "c0") {} {}) (fun _ => ⟨.empty, .empty⟩) run)[2]? =
        some .error := by
  intro run
  have hloop := loop_decomposes momentStats exactFit (fun _ => "c0") {} {} (by decide) (fun _ => ⟨.empty, .empty⟩) run
  obtain ⟨hbroken, hcalm, hraises⟩ := broken_visits
  have hreach : ∀ signal, reaching {} {} signal run = [calmReply, brokenReply, calmReply].filter fun reply =>
      signal ∈ reply.visits {} {} := fun _ => rfl
  refine ⟨?_, ?_, ?_⟩
  · rw [hloop.memories, hreach]
    simp only [List.filter_cons, List.filter_nil, hbroken, hcalm]
    rfl
  · rw [hloop.memories, hreach]
    simp only [List.filter_cons, List.filter_nil, hbroken, hcalm]
    rfl
  · rw [show (2 : ℕ) = [some calmReply, none].length from rfl, hloop.served _ (some brokenReply) ⟨_, rfl⟩,
      Option.elim_some, if_pos (Or.inl hraises)]

end CausalEngine.Service
