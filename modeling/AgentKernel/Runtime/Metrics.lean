import AgentKernel.Lib.Dict
import AgentKernel.Lib.Gauge
import AgentKernel.Lib.Run
import AgentKernel.Lib.Threads
import Mathlib.Data.Finset.Insert

/-! The metrics collector, called from any number of threads.

`inc`, `get_gauge` and `set_gauge` each hold the lock, but a callback is several of them. A counter
is read and written under one lock, so it is exact in every interleaving (`counters_exact`). The
gauge of the active runs is read by one call and written by a later one: two threads may both write
what follows the same reading, and one change is lost. Where no writing comes between a reading and
its own, the gauge still counts only down to zero, so it is exact exactly when at no time more runs
had ended than started (`active_runs_exact_iff`). -/
namespace AgentKernel.Runtime
open Lib

/-- `_label_key`: the items of the labels. -/
abbrev LabelKey := Finset (String × String)

structure KernelMetricsCollector where
  counters : Dict String (Dict LabelKey Nat) := Dict.empty
  /-- The only gauge there is counts runs, so its floats are whole numbers. -/
  gauges : Dict String (Dict LabelKey Nat) := Dict.empty

namespace KernelMetricsCollector

/-- What a table of metrics has under a name and labels, where nothing counts as zero. -/
def valueIn (table : Dict String (Dict LabelKey Nat)) (name : String) (key : LabelKey) : Nat :=
  (((table.get? name).getD Dict.empty).get? key).getD 0

/-- `table.setdefault(name, {})[key] = value`. -/
def put (table : Dict String (Dict LabelKey Nat)) (name : String) (key : LabelKey) (value : Nat) :
    Dict String (Dict LabelKey Nat) :=
  table.set name (((table.get? name).getD Dict.empty).set key value)

theorem valueIn_put (table : Dict String (Dict LabelKey Nat)) (name name' : String) (key key' : LabelKey)
    (value : Nat) :
    valueIn (put table name key value) name' key' =
      if name' = name ∧ key' = key then value else valueIn table name' key' := by
  rw [valueIn, put, Dict.get?_set]
  by_cases hname : name' = name
  · subst hname
    simp only [if_true, Option.getD_some, Dict.get?_set, true_and]
    split
    · rfl
    · rfl
  · simp only [hname, if_false, false_and]
    rfl

def inc (m : KernelMetricsCollector) (name : String) (key : LabelKey) : KernelMetricsCollector :=
  { m with counters := put m.counters name key (valueIn m.counters name key + 1) }

def getCounter (m : KernelMetricsCollector) (name : String) (key : LabelKey) : Nat :=
  valueIn m.counters name key

def setGauge (m : KernelMetricsCollector) (name : String) (value : Nat) (key : LabelKey) :
    KernelMetricsCollector :=
  { m with gauges := put m.gauges name key value }

def getGauge (m : KernelMetricsCollector) (name : String) (key : LabelKey) : Nat := valueIn m.gauges name key

end KernelMetricsCollector

namespace Metrics

/-! ### The callbacks -/

/-- One call under the lock. -/
inductive Op where
  | inc (name : String) (key : LabelKey)
  /-- `current = self.get_gauge("active_runs")`. -/
  | readActiveRuns
  /-- `self.set_gauge("active_runs", ...)` of what was read, one more or one less. -/
  | writeActiveRuns (change : Change)
  deriving DecidableEq

/-- The methods of the hook, with what they look at. -/
inductive Callback where
  | turnStateTransition (toState : String)
  | turnPhase (phaseName : String)
  | runLifecycleTransition (toState : String)
  | llmCall (modelRef : String)
  | actionDispatch (outcomeKind : String)
  | recoveryTriggered (mode : String)
  | admissionEvaluated (admitted : Bool)
  | dispatchAttempted (dedupeOutcome : String)
  | parallelBranchResult (outcome : String)
  | dedupeHit (outcome : String)
  | reflectionRound (corrected : Bool)
  | circuitBreakerTrip (effectClass : String) (tripped : Bool)
  | branchRollbackTriggered (joinStrategy : String)

/-- `_TERMINAL_LIFECYCLE_STATES`. -/
def terminalLifecycleStates : List (String × String) :=
  [("completed", "completed"), ("aborted", "aborted"), ("failed", "failed")]

/-- `_TURN_OUTCOME_MAP`. -/
def turnOutcomeMap : List (String × String) :=
  [("dispatched", "dispatched"), ("completed_noop", "noop"), ("dispatch_blocked", "blocked"),
    ("recovery_pending", "recovery_pending")]

/-- Count one, under one label. -/
def counted (name label value : String) : Op := .inc name {(label, value)}

def onRunLifecycleTransition (toState : String) : List Op :=
  (if toState = "ready" then [.inc "runs_started_total" ∅, .readActiveRuns, .writeActiveRuns .up] else []) ++
    match terminalLifecycleStates.lookup toState with
    | some outcome =>
      [counted "runs_completed_total" "outcome" outcome, .readActiveRuns, .writeActiveRuns .down]
    | none => []

/-- What a callback does, in order. -/
def ops : Callback → List Op
  | .turnStateTransition toState =>
    ((turnOutcomeMap.lookup toState).map (counted "turns_executed_total" "outcome")).toList
  | .turnPhase phaseName => [counted "turn_phase_invocations_total" "phase" phaseName]
  | .runLifecycleTransition toState => onRunLifecycleTransition toState
  | .llmCall modelRef => [counted "llm_calls_total" "model_ref" modelRef]
  | .actionDispatch outcomeKind => [counted "action_dispatches_total" "outcome" outcomeKind]
  | .recoveryTriggered mode => [counted "recovery_decisions_total" "mode" mode]
  | .admissionEvaluated admitted =>
    [counted "admission_evaluations_total" "outcome" (if admitted then "admitted" else "rejected")]
  | .dispatchAttempted dedupeOutcome =>
    [counted "dispatch_attempts_total" "dedupe_outcome" dedupeOutcome]
  | .parallelBranchResult outcome => [counted "parallel_branch_results_total" "outcome" outcome]
  | .dedupeHit outcome => [counted "dedupe_hits_total" "outcome" outcome]
  | .reflectionRound corrected =>
    [counted "reflection_rounds_total" "corrected" (if corrected then "true" else "false")]
  | .circuitBreakerTrip effectClass tripped =>
    if tripped then [counted "circuit_breaker_trips_total" "effect_class" effectClass] else []
  | .branchRollbackTriggered joinStrategy =>
    [counted "branch_rollbacks_total" "join_strategy" joinStrategy]

/-! ### Threads -/

/-- A thread in a callback: what is left of it, and what it read. -/
structure Thread where
  rest : List Op
  current : Nat := 0

/-- The collector, the threads that are in it, what was called, and the writings of the gauge in
their order. -/
structure Collecting where
  collector : KernelMetricsCollector := {}
  threads : List Thread := []
  calls : List Callback := []
  writes : List Change := []

inductive Label where
  | call (callback : Callback)
  | step (thread : Nat)

def activeRuns (s : Collecting) : Nat := s.collector.getGauge "active_runs" ∅

/-- A thread makes its next call under the lock. -/
def runOp (s : Collecting) (i : Nat) (rest : List Op) (current : Nat) : Op → Collecting
  | .inc name key =>
    { s with
      collector := s.collector.inc name key
      threads := s.threads.set i ⟨rest, current⟩ }
  | .readActiveRuns => { s with threads := s.threads.set i ⟨rest, activeRuns s⟩ }
  | .writeActiveRuns change =>
    { s with
      collector := s.collector.setGauge "active_runs" (change.apply current) ∅
      threads := s.threads.set i ⟨rest, current⟩
      writes := s.writes ++ [change] }

def next (s : Collecting) : Label → Collecting
  | .call callback =>
    { s with
      threads := s.threads ++ [⟨ops callback, 0⟩]
      calls := s.calls ++ [callback] }
  | .step i =>
    match s.threads[i]? with
    | some ⟨op :: rest, current⟩ => runOp s i rest current op
    | _ => s

/-- What the threads still have to do. -/
def pending (s : Collecting) : List Op := s.threads.flatMap Thread.rest

/-- What all the callbacks come to. -/
def called (s : Collecting) : List Op := s.calls.flatMap ops

/-- No callback is under way. -/
def Idle (s : Collecting) : Prop := pending s = []

section
variable {s : Collecting} {i : Nat} {op : Op} {rest : List Op} {current : Nat}

/-- What is still to be done loses the operation that is made. -/
theorem pending_runOp (p : Op → Bool) (h : s.threads[i]? = some ⟨op :: rest, current⟩) :
    (pending (runOp s i rest current op)).countP p + (if p op then 1 else 0) = (pending s).countP p := by
  have hset : ∀ current', ((s.threads.set i ⟨rest, current'⟩).flatMap Thread.rest).countP p +
      (if p op then 1 else 0) = (pending s).countP p := by
    intro current'
    have hheld := countP_held_set Thread.rest p h ⟨rest, current'⟩
    simp only [List.countP_cons] at hheld
    unfold pending
    omega
  cases op with
  | inc name key => exact hset current
  | readActiveRuns => exact hset (activeRuns s)
  | writeActiveRuns change => exact hset current

theorem called_runOp (s : Collecting) (i : Nat) (rest : List Op) (current : Nat) (op : Op) :
    called (runOp s i rest current op) = called s := by
  cases op <;> rfl

theorem getCounter_runOp (s : Collecting) (i : Nat) (rest : List Op) (current : Nat) (op : Op)
    (name : String) (key : LabelKey) :
    (runOp s i rest current op).collector.getCounter name key =
      s.collector.getCounter name key + if op = Op.inc name key then 1 else 0 := by
  cases op with
  | inc name' key' =>
    show (s.collector.inc name' key').getCounter name key = _
    rw [KernelMetricsCollector.getCounter, KernelMetricsCollector.inc, KernelMetricsCollector.valueIn_put]
    by_cases h : name = name' ∧ key = key'
    · obtain ⟨rfl, rfl⟩ := h
      rw [if_pos ⟨rfl, rfl⟩, if_pos rfl]
      rfl
    · have hne : ¬ Op.inc name' key' = Op.inc name key := by
        intro heq
        cases heq
        exact h ⟨rfl, rfl⟩
      rw [if_neg h, if_neg hne]
      rfl
  | readActiveRuns => rfl
  | writeActiveRuns change => rfl

theorem writes_runOp (s : Collecting) (i : Nat) (rest : List Op) (current : Nat) (op : Op) (change : Change) :
    (runOp s i rest current op).writes.count change =
      s.writes.count change + if op = Op.writeActiveRuns change then 1 else 0 := by
  cases op with
  | inc name key => rfl
  | readActiveRuns => rfl
  | writeActiveRuns change' =>
    show (s.writes ++ [change']).count change = _
    simp [List.count_append, List.count_singleton]

theorem next_step (h : s.threads[i]? = some ⟨op :: rest, current⟩) :
    next s (.step i) = runOp s i rest current op := by
  simp only [next, h]

/-- A step is a call, or an operation of a thread, or nothing. -/
theorem next_cases (s : Collecting) (l : Label) :
    (∃ callback, l = .call callback) ∨
      (∃ i op rest current, l = .step i ∧ s.threads[i]? = some ⟨op :: rest, current⟩) ∨ next s l = s := by
  cases l with
  | call callback => exact .inl ⟨callback, rfl⟩
  | step i =>
    cases h : s.threads[i]? with
    | none => exact .inr (.inr (by simp only [next, h]))
    | some t =>
      obtain ⟨rest, current⟩ := t
      cases rest with
      | nil => exact .inr (.inr (by simp only [next, h]))
      | cons op rest => exact .inr (.inl ⟨i, op, rest, current, rfl, h⟩)

end

/-! ### Counters -/

/-- Everything counted so far, and everything still to be counted, was called for. -/
structure Exact (s : Collecting) : Prop where
  counters : ∀ name key,
    s.collector.getCounter name key + (pending s).countP (· = Op.inc name key) =
      (called s).countP (· = Op.inc name key)
  writes : ∀ change,
    s.writes.count change + (pending s).countP (· = Op.writeActiveRuns change) =
      (called s).countP (· = Op.writeActiveRuns change)

theorem Exact.call {s : Collecting} (h : Exact s) (callback : Callback) : Exact (next s (.call callback)) := by
  have hpending : pending (next s (.call callback)) = pending s ++ ops callback := by
    simp [pending, next]
  have hcalled : called (next s (.call callback)) = called s ++ ops callback := by
    simp [called, next]
  constructor
  · intro name key
    have := h.counters name key
    rw [hpending, hcalled, List.countP_append, List.countP_append]
    show s.collector.getCounter name key + _ = _
    omega
  · intro change
    have := h.writes change
    rw [hpending, hcalled, List.countP_append, List.countP_append]
    show s.writes.count change + _ = _
    omega

theorem Exact.runOp {s : Collecting} {i : Nat} {op : Op} {rest : List Op} {current : Nat} (h : Exact s)
    (ht : s.threads[i]? = some ⟨op :: rest, current⟩) : Exact (Metrics.runOp s i rest current op) := by
  constructor
  · intro name key
    have hcounters := h.counters name key
    have hpending := pending_runOp (· = Op.inc name key) ht
    rw [getCounter_runOp, called_runOp]
    simp only [decide_eq_true_eq] at hpending
    omega
  · intro change
    have hwrites := h.writes change
    have hpending := pending_runOp (· = Op.writeActiveRuns change) ht
    rw [writes_runOp, called_runOp]
    simp only [decide_eq_true_eq] at hpending
    omega

theorem Exact.next {s : Collecting} (h : Exact s) (l : Label) : Exact (Metrics.next s l) := by
  rcases next_cases s l with ⟨callback, rfl⟩ | ⟨i, op, rest, current, rfl, ht⟩ | hsame
  · exact h.call callback
  · rw [next_step ht]
    exact h.runOp ht
  · rw [hsame]
    exact h

theorem exact_run (labels : List Label) : Exact (run next {} labels) :=
  run_invariant (I := Exact) (fun _ l h => h.next l) ⟨fun _ _ => rfl, fun _ => rfl⟩ labels

/-- **Counters are exact in every interleaving of any callbacks**: what a counter has, and what the
callbacks under way are still to add to it, is what it was called for. -/
theorem counters_exact (labels : List Label) (name : String) (key : LabelKey) :
    (run next {} labels).collector.getCounter name key +
        (pending (run next {} labels)).countP (· = Op.inc name key) =
      (called (run next {} labels)).countP (· = Op.inc name key) :=
  (exact_run labels).counters name key

/-! ### The gauge of the active runs -/

/-- A writing of the gauge finds what its thread read. -/
def Undisturbed (s : Collecting) : Label → Prop
  | .call _ => True
  | .step i => ∀ change rest current,
    s.threads[i]? = some ⟨.writeActiveRuns change :: rest, current⟩ → current = activeRuns s

/-- The gauge counts the writings. -/
def Counts (s : Collecting) : Prop := activeRuns s = clamped s.writes

theorem activeRuns_write (s : Collecting) (i : Nat) (rest : List Op) (current : Nat) (change : Change) :
    activeRuns (runOp s i rest current (.writeActiveRuns change)) = change.apply current := by
  show KernelMetricsCollector.valueIn (KernelMetricsCollector.put _ _ _ _) _ _ = _
  rw [KernelMetricsCollector.valueIn_put, if_pos ⟨rfl, rfl⟩]

theorem Counts.next {s : Collecting} (h : Counts s) {l : Label} (hl : Undisturbed s l) :
    Counts (Metrics.next s l) := by
  rcases next_cases s l with ⟨callback, rfl⟩ | ⟨i, op, rest, current, rfl, ht⟩ | hsame
  · exact h
  · rw [next_step ht]
    cases op with
    | inc name key => exact h
    | readActiveRuns => exact h
    | writeActiveRuns change =>
      have hcurrent : current = activeRuns s := hl change rest current ht
      rw [Counts, activeRuns_write, hcurrent, h]
      exact (clamped_append s.writes change).symm
  · rw [hsame]
    exact h

/-- What a thread read, and what the gauge shows, is at most what was ever written upwards. -/
structure Bounded (s : Collecting) : Prop where
  gauge : activeRuns s ≤ ups s.writes
  threads : ∀ t ∈ s.threads, t.current ≤ ups s.writes

theorem ups_append (changes : List Change) (c : Change) :
    ups (changes ++ [c]) = ups changes + if c = .up then 1 else 0 := by
  simp [ups, List.count_append, List.count_singleton]

theorem Bounded.next {s : Collecting} (h : Bounded s) (l : Label) : Bounded (Metrics.next s l) := by
  rcases next_cases s l with ⟨callback, rfl⟩ | ⟨i, op, rest, current, rfl, ht⟩ | hsame
  · refine ⟨h.gauge, fun t ht => ?_⟩
    rcases List.mem_append.mp ht with ht | ht
    · exact h.threads t ht
    · rw [List.mem_singleton.mp ht]
      exact Nat.zero_le _
  · have hcurrent : current ≤ ups s.writes := h.threads _ (List.mem_of_getElem? ht)
    have hset : ∀ {current'}, current' ≤ ups s.writes → ∀ t ∈ s.threads.set i ⟨rest, current'⟩,
        t.current ≤ ups s.writes := by
      intro current' hle t ht
      rcases List.mem_or_eq_of_mem_set ht with ht | rfl
      · exact h.threads t ht
      · exact hle
    rw [next_step ht]
    cases op with
    | inc name key => exact ⟨h.gauge, hset hcurrent⟩
    | readActiveRuns => exact ⟨h.gauge, hset h.gauge⟩
    | writeActiveRuns change =>
      have hups : ups (s.writes ++ [change]) = _ := ups_append s.writes change
      constructor
      · rw [activeRuns_write]
        show _ ≤ ups (s.writes ++ [change])
        cases change with
        | up =>
          simp only [Change.apply, if_true] at hups ⊢
          omega
        | down =>
          simp only [Change.apply] at hups ⊢
          omega
      · intro t ht
        have := hset hcurrent t ht
        show _ ≤ ups (s.writes ++ [change])
        omega
  · rw [hsame]
    exact h

theorem counts_start : Counts {} := rfl

theorem bounded_start : Bounded {} := by
  refine ⟨Nat.le_refl 0, fun t ht => ?_⟩
  cases ht

/-- The callback tells of a run that started. -/
def Callback.starts : Callback → Bool
  | .runLifecycleTransition toState => toState = "ready"
  | _ => false

/-- The callback tells of a run that ended. -/
def Callback.ends : Callback → Bool
  | .runLifecycleTransition toState => (terminalLifecycleStates.lookup toState).isSome
  | _ => false

def started (s : Collecting) : Nat := s.calls.countP Callback.starts

def ended (s : Collecting) : Nat := s.calls.countP Callback.ends

theorem countP_ops (change : Change) (callback : Callback) :
    (ops callback).countP (· = Op.writeActiveRuns change) =
      (if callback.starts ∧ change = .up then 1 else 0) + if callback.ends ∧ change = .down then 1 else 0 := by
  cases callback with
  | runLifecycleTransition toState =>
    rw [ops, onRunLifecycleTransition, List.countP_append]
    congr 1
    · by_cases h : toState = "ready" <;> cases change <;> simp [Callback.starts, h]
    · rw [Callback.ends]
      cases terminalLifecycleStates.lookup toState <;> cases change <;> simp [counted]
  | turnStateTransition toState =>
    rw [ops]
    cases turnOutcomeMap.lookup toState <;> simp [counted, Callback.starts, Callback.ends]
  | circuitBreakerTrip effectClass tripped =>
    cases tripped <;> simp [ops, counted, Callback.starts, Callback.ends]
  | _ => simp [ops, counted, Callback.starts, Callback.ends]

theorem countP_called (s : Collecting) :
    (called s).countP (· = Op.writeActiveRuns .up) = started s ∧
      (called s).countP (· = Op.writeActiveRuns .down) = ended s := by
  unfold called started ended
  induction s.calls with
  | nil => exact ⟨rfl, rfl⟩
  | cons callback rest ih =>
    obtain ⟨hstarted, hended⟩ := ih
    simp only [List.flatMap_cons, List.countP_append, List.countP_cons, countP_ops, hstarted, hended]
    constructor <;> simp <;> omega

/-- **The gauge is never above the runs that started, in any interleaving. If no writing of it comes
between another thread's reading and writing, then once nothing is under way it is the runs that
started less those that ended exactly when at no time more had ended than started.** -/
theorem active_runs_exact_iff (labels : List Label) :
    activeRuns (run next {} labels) ≤ started (run next {} labels) ∧
      (Along next Undisturbed {} labels → Idle (run next {} labels) →
        (activeRuns (run next {} labels) + ended (run next {} labels) = started (run next {} labels) ↔
          Covered (run next {} labels).writes)) := by
  have hwrites := (exact_run labels).writes
  obtain ⟨hstarted, hended⟩ := countP_called (run next {} labels)
  have hbounded : Bounded (run next {} labels) :=
    run_invariant (I := Bounded) (fun _ l h => h.next l) bounded_start labels
  constructor
  · have hups := hwrites .up
    rw [hstarted] at hups
    exact le_trans hbounded.gauge (hups ▸ Nat.le_add_right _ _)
  · intro halong hidle
    have hcounts : Counts (run next {} labels) :=
      run_invariant_along (I := Counts) (fun _ _ hl h => h.next hl) counts_start labels halong
    have hups := hwrites .up
    have hdowns := hwrites .down
    rw [show pending (run next {} labels) = [] from hidle, List.countP_nil] at hups hdowns
    rw [← hstarted, ← hended, ← hups, ← hdowns, hcounts]
    exact clamped_exact_iff _

/-- A run starts and ends, and another one starts. -/
def oneLeft : List Label :=
  [.call (.runLifecycleTransition "ready"), .step 0, .step 0, .step 0,
    .call (.runLifecycleTransition "completed"), .step 1, .step 1, .step 1,
    .call (.runLifecycleTransition "ready"), .step 2, .step 2, .step 2]

instance (s : Collecting) : (l : Label) → Decidable (Undisturbed s l)
  | .call _ => .isTrue trivial
  | .step i =>
    match h : s.threads[i]? with
    | some ⟨.writeActiveRuns change :: rest, current⟩ =>
      decidable_of_iff (current = activeRuns s) (by simp [Undisturbed, h])
    | some ⟨.inc name key :: rest, current⟩ => .isTrue (by simp [Undisturbed, h])
    | some ⟨.readActiveRuns :: rest, current⟩ => .isTrue (by simp [Undisturbed, h])
    | some ⟨[], current⟩ => .isTrue (by simp [Undisturbed, h])
    | none => .isTrue (by simp [Undisturbed, h])

theorem one_left :
    activeRuns (run next {} oneLeft) + ended (run next {} oneLeft) = started (run next {} oneLeft) :=
  ((active_runs_exact_iff oneLeft).2 (by decide) rfl).mpr (by decide)

/-- Two threads read the gauge before either writes it: one start is lost. -/
example : activeRuns (run next {} [.call (.runLifecycleTransition "ready"),
    .call (.runLifecycleTransition "ready"), .step 0, .step 1, .step 0, .step 1, .step 0, .step 1]) = 1 := by
  decide

end Metrics
end AgentKernel.Runtime
