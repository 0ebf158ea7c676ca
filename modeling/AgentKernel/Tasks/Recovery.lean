import AgentKernel.Tasks.Registry

/-! What a replay of the task events restores.

The replay runs the live operations on the recorded events, evictions included, so what a
registry holds up to the clock (`lasting`) is restored as long as every call says all it
does in its event. Four kinds of calls do not: the event of a registration has no cap on
the backoff, the event of an attempt has neither outcome nor failure nor reflection and is
skipped as a repetition when an attempt of the task looks like it, the event of a failure
has no payload, and the states `pending`, `running` and `failed` have no event. A log
restores the registry after every prefix of a run exactly when no call of the run loses
anything that way (`recovery_iff`). -/
namespace AgentKernel.Tasks
open Lib

/-! ### The replay -/

/-- What the replay reads off its clock for one event. -/
structure Clock where
  now : Int
  nowIso : String

/-- The descriptor a payload of `task.registered` gives. -/
def RegisteredPayload.descriptor (p : RegisteredPayload) : TaskDescriptor where
  taskId := p.taskId
  sessionId := p.sessionId
  taskKind := p.taskKind
  goalDescription := p.goalDescription
  parentTaskId := p.parentTaskId
  dependencyTaskIds := p.dependencyTaskIds
  restartPolicy :=
    { maxAttempts := p.restartPolicy.maxAttempts
      backoffBaseMs := p.restartPolicy.backoffBaseMs
      onExhausted := p.restartPolicy.onExhausted
      heartbeatTimeoutMs := p.restartPolicy.heartbeatTimeoutMs }
  metadata := p.metadata

/-- The attempt a payload of `task.attempt_started` gives. -/
def AttemptStartedPayload.attempt (p : AttemptStartedPayload) : TaskAttempt where
  attemptId := p.attemptId
  taskId := p.taskId
  runId := p.runId
  attemptSeq := p.attemptSeq
  startedAt := p.startedAt

/-- One attempt looks like another to the replay. -/
def TaskAttempt.Repeats (a b : TaskAttempt) : Prop :=
  b.attemptId = a.attemptId ∨ b.runId = a.runId ∧ b.attemptSeq = a.attemptSeq

instance (a b : TaskAttempt) : Decidable (a.Repeats b) := inferInstanceAs (Decidable (_ ∨ _))

/-- An attempt without its timestamps. -/
def TaskAttempt.untimed (a : TaskAttempt) : TaskAttempt :=
  { a with startedAt := "", completedAt := none }

namespace TaskRegistry

/-- The task has an attempt that looks like the given one. -/
def Repeated (r : TaskRegistry) (a : TaskAttempt) : Prop :=
  ∃ b ∈ r.getAttempts a.taskId, a.Repeats b

instance (r : TaskRegistry) (a : TaskAttempt) : Decidable (r.Repeated a) :=
  inferInstanceAs (Decidable (∃ b ∈ r.getAttempts a.taskId, a.Repeats b))

/-- The replay of one event. -/
def replayEvent (r : TaskRegistry) (clock : Clock) : TaskEvent → TaskRegistry
  | .registered p => r.next (.register p.descriptor)
  | .attemptStarted p =>
    if r.Repeated p.attempt then r else r.next (.startAttempt p.attempt clock.now)
  | .attemptCompleted taskId runId outcome | .attemptFailed taskId runId outcome =>
    r.next (.completeAttempt taskId runId outcome none clock.nowIso)
  | .stateSet event taskId _ => r.next (.updateState taskId event.state)

/-- The replay after a number of events. -/
def replayFrom (clock : Nat → Clock) : Nat → TaskRegistry → List TaskEvent → TaskRegistry × Nat
  | replayed, r, [] => (r, replayed)
  | replayed, r, event :: rest =>
    replayFrom clock (replayed + 1) (r.replayEvent (clock replayed) event) rest

end TaskRegistry

/-- `replay_into_registry`: the registry, and how many events were replayed. -/
def InMemoryTaskEventLog.replayIntoRegistry (log : InMemoryTaskEventLog) (clock : Nat → Clock)
    (registry : TaskRegistry) : TaskRegistry × Nat :=
  TaskRegistry.replayFrom clock 0 registry log.events

namespace TaskRegistry
variable {r r' : TaskRegistry}

theorem replayFrom_append (clock : Nat → Clock) (n : Nat) (r : TaskRegistry) (events : List TaskEvent)
    (event : TaskEvent) :
    (replayFrom clock n r (events ++ [event])).1 =
      (replayFrom clock n r events).1.replayEvent (clock (n + events.length)) event := by
  induction events generalizing n r with
  | nil => rfl
  | cons first rest ih =>
    rw [List.cons_append, replayFrom, ih, replayFrom, List.length_cons, Nat.add_right_comm,
      Nat.add_assoc]

/-- The event a call hands to the appender. -/
def emission (r : TaskRegistry) (call : TaskCall) : Option TaskEvent :=
  match r.completing call with
  | some c => if r.Active c.taskId c.runId then some (attemptEnded c.taskId c.runId c.outcome) else none
  | none =>
    match call with
    | .register d => if d.taskId ∈ r.tasks.keys then none else some (.registered (registeredPayload d))
    | .startAttempt a _ =>
      if a.taskId ∈ r.tasks.keys then some (.attemptStarted (attemptStartedPayload a)) else none
    | .updateState taskId state =>
      if taskId ∈ r.tasks.keys then (stateEvent state).map (fun e => .stateSet e taskId state) else none
    | _ => none

theorem emission_of_completing {call : TaskCall} {c : Completion} (h : r.completing call = some c) :
    r.emission call =
      if r.Active c.taskId c.runId then some (attemptEnded c.taskId c.runId c.outcome) else none := by
  simp only [emission, h]

/-- The log need not drop an event for the one that comes. -/
def Roomy (r : TaskRegistry) (call : TaskCall) : Prop :=
  (r.emission call).isSome → ∀ log ∈ r.eventAppender,
    log.events.isEmpty ∨ (log.events.length : Int) < log.maxEvents

instance (r : TaskRegistry) (call : TaskCall) : Decidable (r.Roomy call) :=
  inferInstanceAs (Decidable (_ → _))

/-! ### What is asked of a recovery -/

/-- The same tasks in the same order per session, with the same descriptors, states and
attempts. -/
structure Recovered (r r' : TaskRegistry) : Prop where
  sessions : ∀ sessionId, r'.listSessionTasks sessionId = r.listSessionTasks sessionId
  descriptors : ∀ taskId, r'.get taskId = r.get taskId
  states : ∀ taskId, r'.lifecycleState taskId = r.lifecycleState taskId
  attempts : ∀ taskId, (r'.getAttempts taskId).map TaskAttempt.untimed = (r.getAttempts taskId).map TaskAttempt.untimed

/-- What a call may say beyond its event: nothing. -/
def Recorded (r : TaskRegistry) : TaskCall → Prop
  | .register d => d.taskId ∈ r.tasks.keys ∨ d.restartPolicy.maxBackoffMs = 30000
  | .startAttempt a _ => a.taskId ∈ r.tasks.keys →
    ¬ r.Repeated a ∧ a.outcome = none ∧ a.failure = none ∧ a.reflectionOutput = none
  | .completeAttempt taskId runId outcome failure _ =>
    r.Active taskId runId → outcome = .completed ∨ failure = none
  | .updateState taskId state => ∀ current, r.lifecycleState taskId = some current →
    current = state ∨ stateEvent state ≠ none
  | _ => True

end TaskRegistry

/-! ### What lasts of a task -/

namespace TaskEntry

/-- A task without what the clock gave it. -/
def lasting (entry : TaskEntry) : TaskEntry :=
  { entry with
    attempts := entry.attempts.map TaskAttempt.untimed
    lastHeartbeatMs := none
    consecutiveMissedBeats := 0 }

/-- The start of an attempt, as far as it lasts. -/
def gain (a : TaskAttempt) (entry : TaskEntry) : TaskEntry :=
  { entry with attempts := entry.attempts ++ [a], lifecycleState := .running }

/-- The end of an attempt, as far as it lasts. -/
def settle (runId : String) (outcome : TaskOutcome) (failure : Option Value) (entry : TaskEntry) :
    TaskEntry :=
  { entry with
    attempts := entry.attempts.map (fun a => if a.ActiveOn runId then
      { a with outcome := some outcome, failure := if outcome ≠ .completed then failure else none }
      else a)
    lifecycleState := stateAfter outcome }

theorem lasting_start (a : TaskAttempt) (now : Int) (entry : TaskEntry) :
    (entry.start a now).lasting = entry.lasting.gain a.untimed := by
  simp only [lasting, start, gain, List.map_append, List.map_cons, List.map_nil]

theorem lasting_complete (runId : String) (outcome : TaskOutcome) (failure : Option Value)
    (nowIso : String) (entry : TaskEntry) :
    (entry.complete runId outcome failure nowIso).lasting =
      entry.lasting.settle runId outcome failure := by
  simp only [lasting, complete, settle, List.map_map, TaskEntry.mk.injEq, true_and, and_true]
  refine List.map_congr_left (fun a _ => ?_)
  by_cases h : a.ActiveOn runId
  · have h' : a.untimed.ActiveOn runId := h
    simp only [Function.comp_apply, if_pos h, if_pos h']
    rfl
  · have h' : ¬ a.untimed.ActiveOn runId := h
    simp only [Function.comp_apply, if_neg h, if_neg h']

theorem lasting_setState (state : TaskLifecycleState) (entry : TaskEntry) :
    (entry.setState state).lasting = entry.lasting.setState state := rfl

theorem lasting_beat (now : Int) (entry : TaskEntry) : (entry.beat now).lasting = entry.lasting := rfl

theorem lasting_sweep (now : Int) (entry : TaskEntry) : (entry.sweep now).lasting = entry.lasting := by
  unfold sweep
  split <;> rfl

theorem activeOn_lasting (runId : String) (entry : TaskEntry) :
    entry.lasting.ActiveOn runId ↔ entry.ActiveOn runId := by
  simp only [ActiveOn, lasting, List.mem_map, exists_exists_and_eq_and]
  exact Iff.rfl

end TaskEntry

/-! ### What lasts of a registry -/

namespace TaskRegistry
variable {r r' : TaskRegistry}

/-- A registry up to the clock, its index of runs and its appender. -/
def lasting (r : TaskRegistry) : TaskRegistry where
  tasks := r.tasks.map TaskEntry.lasting
  sessionIndex := r.sessionIndex
  maxTasks := r.maxTasks

theorem get?_lasting (r : TaskRegistry) (taskId : String) :
    r.lasting.tasks.get? taskId = (r.tasks.get? taskId).map TaskEntry.lasting :=
  Dict.get?_map TaskEntry.lasting r.tasks taskId

theorem keys_lasting (r : TaskRegistry) : r.lasting.tasks.keys = r.tasks.keys :=
  Dict.keys_map TaskEntry.lasting r.tasks

theorem get_lasting (r : TaskRegistry) (taskId : String) : r.lasting.get taskId = r.get taskId := by
  rw [get, get?_lasting, Option.map_map]
  rfl

theorem lifecycleState_lasting (r : TaskRegistry) (taskId : String) :
    r.lasting.lifecycleState taskId = r.lifecycleState taskId := by
  rw [lifecycleState, get?_lasting, Option.map_map]
  rfl

theorem getAttempts_lasting (r : TaskRegistry) (taskId : String) :
    r.lasting.getAttempts taskId = (r.getAttempts taskId).map TaskAttempt.untimed := by
  rw [getAttempts, get?_lasting, getAttempts]
  cases r.tasks.get? taskId <;> rfl

theorem active_lasting (r : TaskRegistry) (taskId runId : String) :
    r.lasting.Active taskId runId ↔ r.Active taskId runId := by
  simp only [Active, get?_lasting, Option.map_eq_some_iff, exists_exists_and_eq_and,
    TaskEntry.activeOn_lasting]

theorem toEvict_lasting (r : TaskRegistry) : r.lasting.toEvict = r.toEvict := by
  have hterminal : (r.lasting.tasks.entries.filter (fun e => e.2.lifecycleState.terminal)).map Prod.fst =
      (r.tasks.entries.filter (fun e => e.2.lifecycleState.terminal)).map Prod.fst := by
    simp only [lasting, Dict.map, List.filter_map, List.map_map]
    rfl
  have hsize : r.lasting.tasks.size = r.tasks.size := Dict.size_map TaskEntry.lasting r.tasks
  simp only [toEvict, hterminal, hsize]
  rfl

theorem lasting_evict (r : TaskRegistry) (taskId : String) :
    (r.evict taskId).lasting = r.lasting.evict taskId := by
  unfold evict
  rw [get?_lasting]
  cases r.tasks.get? taskId with
  | none => rfl
  | some entry => simp only [lasting, Option.map_some, Dict.map_erase, TaskEntry.lasting]

theorem lasting_run_evict (r : TaskRegistry) (evicted : List String) :
    (run evict r evicted).lasting = run evict r.lasting evicted := by
  induction evicted generalizing r with
  | nil => rfl
  | cons first rest ih => rw [run_cons, ih, lasting_evict, run_cons]

theorem lasting_evictIfNeeded (r : TaskRegistry) : r.evictIfNeeded.lasting = r.lasting.evictIfNeeded := by
  rw [evictIfNeeded, lasting_run_evict, evictIfNeeded, toEvict_lasting]

theorem lasting_insert (r : TaskRegistry) (d : TaskDescriptor) :
    (r.insert d).lasting = r.lasting.insert d := by
  simp only [lasting, insert, Dict.map_set]
  rfl

/-- The registry with one task changed. -/
def modifyTask (r : TaskRegistry) (taskId : String) (f : TaskEntry → TaskEntry) : TaskRegistry :=
  { r with tasks := r.tasks.modify taskId f }

theorem lasting_modifyTask {f g : TaskEntry → TaskEntry} (h : ∀ entry, (f entry).lasting = g entry.lasting)
    (r : TaskRegistry) (taskId : String) :
    (r.modifyTask taskId f).lasting = r.lasting.modifyTask taskId g := by
  simp only [lasting, modifyTask, Dict.map_modify h]

theorem lasting_begin (r : TaskRegistry) (a : TaskAttempt) (now : Int) :
    (r.begin a now).lasting = r.lasting.modifyTask a.taskId (TaskEntry.gain a.untimed) := by
  exact lasting_modifyTask (TaskEntry.lasting_start a now) r a.taskId

theorem lasting_finish (r : TaskRegistry) (taskId runId : String) (outcome : TaskOutcome)
    (failure : Option Value) (nowIso : String) :
    (r.finish taskId runId outcome failure nowIso).lasting =
      r.lasting.modifyTask taskId (TaskEntry.settle runId outcome failure) := by
  exact lasting_modifyTask (TaskEntry.lasting_complete runId outcome failure nowIso) r taskId

theorem lasting_updateState {taskId : String} (h : taskId ∈ r.tasks.keys) (state : TaskLifecycleState) :
    (r.updateState taskId state).lasting = r.lasting.modifyTask taskId (TaskEntry.setState state) := by
  have hset := lasting_modifyTask (TaskEntry.lasting_setState state) r taskId
  unfold updateState
  rw [if_pos h, ← hset]
  cases stateEvent state <;> rfl

theorem lasting_heartbeat (r : TaskRegistry) (taskId : String) (now : Int) :
    (r.heartbeat taskId now).lasting = r.lasting := by
  simp only [lasting, heartbeat, Dict.map_modify_of_eq (TaskEntry.lasting_beat now)]

theorem lasting_heartbeatForRun (r : TaskRegistry) (runId : String) (now : Int) :
    (r.heartbeatForRun runId now).lasting = r.lasting := by
  unfold heartbeatForRun
  split
  · exact lasting_heartbeat r _ now
  · rfl

theorem lasting_getStalledTasks (r : TaskRegistry) (now : Int) :
    (r.getStalledTasks now).1.lasting = r.lasting := by
  have hmap : (r.tasks.map (TaskEntry.sweep now)).map TaskEntry.lasting = r.tasks.map TaskEntry.lasting := by
    refine Dict.ext_entries ?_
    simp only [Dict.map, List.map_map]
    refine List.map_congr_left (fun e _ => ?_)
    simp only [Function.comp_apply, TaskEntry.lasting_sweep]
  simp only [lasting, getStalledTasks, hmap]

/-! ### One call and the replay of its event -/

/-- Two registries that hold the same but for what does not last. -/
def Like (r r' : TaskRegistry) : Prop := r'.lasting = r.lasting

theorem Like.keys (h : Like r r') : r'.tasks.keys = r.tasks.keys := by
  rw [← keys_lasting r', h, keys_lasting]

theorem Like.active (h : Like r r') (taskId runId : String) :
    r'.Active taskId runId ↔ r.Active taskId runId := by
  rw [← active_lasting r', h, active_lasting]

theorem Like.attempts (h : Like r r') (taskId : String) :
    (r'.getAttempts taskId).map TaskAttempt.untimed = (r.getAttempts taskId).map TaskAttempt.untimed := by
  rw [← getAttempts_lasting r', h, getAttempts_lasting]

theorem repeated_iff (r : TaskRegistry) (a : TaskAttempt) :
    r.Repeated a ↔ ∃ b ∈ (r.getAttempts a.taskId).map TaskAttempt.untimed, a.Repeats b := by
  simp only [Repeated, List.mem_map, exists_exists_and_eq_and]
  exact Iff.rfl

theorem Like.repeated (h : Like r r') (a : TaskAttempt) : r'.Repeated a ↔ r.Repeated a := by
  rw [repeated_iff, repeated_iff, h.attempts]

theorem Like.recovered (h : Like r r') : Recovered r r' := by
  have hget : ∀ taskId, r'.get taskId = r.get taskId := by
    intro taskId
    rw [← get_lasting r', h, get_lasting]
  have hindex : r'.lasting.sessionIndex = r.lasting.sessionIndex := by rw [h]
  refine ⟨fun sessionId => ?_, hget, fun taskId => ?_, h.attempts⟩
  · have hsessions : r'.sessionTasks sessionId = r.sessionTasks sessionId :=
      congrArg (fun d : Dict String (List String) => (d.get? sessionId).getD []) hindex
    rw [listSessionTasks, hsessions, funext hget, listSessionTasks]
  · rw [← lifecycleState_lasting r', h, lifecycleState_lasting]

/-- The replay of what a call emitted. -/
def replayed (r : TaskRegistry) (clock : Clock) : Option TaskEvent → TaskRegistry
  | some event => r.replayEvent clock event
  | none => r

/-- The call and the replay of its event agree if the call says all it does, and differ
visibly otherwise. -/
structure Restores (r r' : TaskRegistry) (call : TaskCall) (clock : Clock) : Prop where
  like : r.Recorded call → Like (r.next call) (r'.replayed clock (r.emission call))
  shows : Recovered (r.next call) (r'.replayed clock (r.emission call)) → r.Recorded call

/-- A call that emits nothing and changes nothing that lasts. -/
theorem Restores.of_quiet (h : Like r r') {call : TaskCall} {clock : Clock} (hrecorded : r.Recorded call)
    (hemits : r.emission call = none) (hlasting : (r.next call).lasting = r.lasting) :
    Restores r r' call clock := by
  refine ⟨fun _ => ?_, fun _ => hrecorded⟩
  rw [hemits]
  exact h.trans hlasting.symm

theorem descriptor_registeredPayload (d : TaskDescriptor) :
    (registeredPayload d).descriptor = d ↔ d.restartPolicy.maxBackoffMs = 30000 := by
  obtain ⟨taskId, sessionId, taskKind, goal, parent, dependencies, policy, metadata⟩ := d
  obtain ⟨attempts, base, cap, exhausted, heartbeat⟩ := policy
  simp [RegisteredPayload.descriptor, registeredPayload, eq_comm]

theorem restores_register (h : Like r r') (d : TaskDescriptor) (clock : Clock) :
    Restores r r' (.register d) clock := by
  by_cases hknown : d.taskId ∈ r.tasks.keys
  · refine .of_quiet h (.inl hknown) (if_pos hknown) ?_
    rw [next_register_known hknown]
  · have hemits : r.emission (.register d) = some (.registered (registeredPayload d)) := if_neg hknown
    have hnew : (registeredPayload d).descriptor.taskId ∉ r'.tasks.keys := h.keys ▸ hknown
    have hreplayed : (r'.replayed clock (r.emission (.register d))).lasting =
        (r.evictIfNeeded.insert (registeredPayload d).descriptor).lasting := by
      rw [hemits, replayed, replayEvent, next_register_new hnew]
      show (r'.evictIfNeeded.insert _).lasting = _
      rw [lasting_insert, lasting_evictIfNeeded, h, ← lasting_evictIfNeeded, ← lasting_insert]
    have hnext : (r.next (.register d)).lasting = (r.evictIfNeeded.insert d).lasting := by
      rw [next_register_new hknown]
      rfl
    constructor
    · intro hrecorded
      have hcap := hrecorded.resolve_left hknown
      rw [Like, hreplayed, hnext, (descriptor_registeredPayload d).mpr hcap]
    · intro hrecovered
      have hown : ∀ d' : TaskDescriptor, d'.taskId = d.taskId →
          (r.evictIfNeeded.insert d').lasting.get d.taskId = some d' := by
        intro d' hd'
        rw [get_lasting, get, insert, Dict.get?_set, if_pos hd'.symm]
        rfl
      have hget := hrecovered.descriptors d.taskId
      rw [← get_lasting, hreplayed, hown (registeredPayload d).descriptor rfl, ← get_lasting, hnext,
        hown d rfl] at hget
      exact .inr ((descriptor_registeredPayload d).mp (Option.some.inj hget))

theorem untimed_attempt (a : TaskAttempt) :
    (attemptStartedPayload a).attempt.untimed = a.untimed ↔
      a.outcome = none ∧ a.failure = none ∧ a.reflectionOutput = none := by
  obtain ⟨attemptId, taskId, runId, attemptSeq, startedAt, completedAt, outcome, failure, reflection⟩ := a
  simp [TaskAttempt.untimed, AttemptStartedPayload.attempt, attemptStartedPayload, eq_comm]

theorem getAttempts_gain {taskId : String} (hknown : taskId ∈ r.tasks.keys) (a : TaskAttempt) :
    (r.modifyTask taskId (TaskEntry.gain a)).getAttempts taskId = r.getAttempts taskId ++ [a] := by
  obtain ⟨entry, hget⟩ := (Dict.mem_keys_iff _ _).mp hknown
  simp only [getAttempts, modifyTask, Dict.get?_modify, if_pos, hget]
  rfl

theorem restores_start (h : Like r r') (a : TaskAttempt) (now : Int) (clock : Clock) :
    Restores r r' (.startAttempt a now) clock := by
  by_cases hknown : a.taskId ∈ r.tasks.keys
  · have hemits : r.emission (.startAttempt a now) =
        some (.attemptStarted (attemptStartedPayload a)) := if_pos hknown
    have hnext : (r.next (.startAttempt a now)).lasting =
        r.lasting.modifyTask a.taskId (TaskEntry.gain a.untimed) := by
      rw [next_start_known hknown]
      exact lasting_begin r a now
    have hknown' : a.taskId ∈ r.lasting.tasks.keys := (keys_lasting r).symm ▸ hknown
    by_cases hrepeated : r.Repeated a
    · -- the replay skips the attempt, and has one less
      have hreplayed : r'.replayed clock (r.emission (.startAttempt a now)) = r' := by
        rw [hemits]
        exact if_pos ((h.repeated a).mpr hrepeated)
      refine ⟨fun hrecorded => absurd hrepeated (hrecorded hknown).1, fun hrecovered => ?_⟩
      have hattempts := hrecovered.attempts a.taskId
      rw [hreplayed, ← getAttempts_lasting, ← getAttempts_lasting, hnext, h,
        getAttempts_gain hknown'] at hattempts
      have hlength := congrArg List.length hattempts
      rw [List.length_append, List.length_singleton] at hlength
      omega
    · have hreplayed : (r'.replayed clock (r.emission (.startAttempt a now))).lasting =
          r.lasting.modifyTask a.taskId
            (TaskEntry.gain (attemptStartedPayload a).attempt.untimed) := by
        have hnew : ¬ r'.Repeated (attemptStartedPayload a).attempt := fun hagain =>
          hrepeated ((h.repeated a).mp hagain)
        have hthere : (attemptStartedPayload a).attempt.taskId ∈ r'.tasks.keys := h.keys.symm ▸ hknown
        rw [hemits, replayed, replayEvent, if_neg hnew, next_start_known hthere, ← h]
        exact lasting_begin r' _ clock.now
      constructor
      · intro hrecorded
        rw [Like, hreplayed, hnext, (untimed_attempt a).mpr (hrecorded hknown).2]
      · intro hrecovered hknown
        have hattempts := hrecovered.attempts a.taskId
        rw [← getAttempts_lasting, ← getAttempts_lasting, hnext, hreplayed,
          getAttempts_gain hknown', getAttempts_gain hknown', List.append_cancel_left_eq] at hattempts
        exact ⟨hrepeated, (untimed_attempt a).mp (List.singleton_inj.mp hattempts)⟩
  · refine .of_quiet h (fun hmem => absurd hmem hknown) (if_neg hknown) ?_
    rw [next_start_unknown hknown]

theorem getAttempts_settle (r : TaskRegistry) (taskId runId : String) (outcome : TaskOutcome)
    (failure : Option Value) :
    (r.modifyTask taskId (TaskEntry.settle runId outcome failure)).getAttempts taskId =
      (r.getAttempts taskId).map (fun a => if a.ActiveOn runId then
        { a with outcome := some outcome, failure := if outcome ≠ .completed then failure else none }
        else a) := by
  simp only [getAttempts, modifyTask, Dict.get?_modify, if_pos]
  cases r.tasks.get? taskId <;> rfl

theorem next_complete_active {taskId runId : String} (h : r.Active taskId runId) (outcome : TaskOutcome)
    (failure : Option Value) (nowIso : String) :
    (r.next (.completeAttempt taskId runId outcome failure nowIso)).lasting =
      r.lasting.modifyTask taskId (TaskEntry.settle runId outcome failure) := by
  rw [← lasting_finish r taskId runId outcome failure nowIso]
  simp only [next, perform, completeAttempt, if_pos h]
  rfl

theorem replayEvent_attemptEnded (r : TaskRegistry) (clock : Clock) (taskId runId : String)
    (outcome : TaskOutcome) :
    r.replayEvent clock (attemptEnded taskId runId outcome) =
      r.next (.completeAttempt taskId runId outcome none clock.nowIso) := by
  unfold attemptEnded
  split <;> rfl

theorem next_complete_idle {taskId runId : String} (h : ¬ r.Active taskId runId) (outcome : TaskOutcome)
    (failure : Option Value) (nowIso : String) :
    r.next (.completeAttempt taskId runId outcome failure nowIso) = r := by
  simp only [next, perform, completeAttempt, if_neg h]

theorem restores_complete (h : Like r r') (taskId runId : String) (outcome : TaskOutcome)
    (failure : Option Value) (nowIso : String) (clock : Clock) :
    Restores r r' (.completeAttempt taskId runId outcome failure nowIso) clock := by
  by_cases hactive : r.Active taskId runId
  · have hemits : r.emission (.completeAttempt taskId runId outcome failure nowIso) =
        some (attemptEnded taskId runId outcome) := if_pos hactive
    have hnext := next_complete_active hactive outcome failure nowIso
    have hreplayed : (r'.replayed clock
        (r.emission (.completeAttempt taskId runId outcome failure nowIso))).lasting =
          r.lasting.modifyTask taskId (TaskEntry.settle runId outcome none) := by
      rw [hemits, replayed, replayEvent_attemptEnded,
        next_complete_active ((h.active taskId runId).mpr hactive), h]
    constructor
    · intro hrecorded
      have hsame : TaskEntry.settle runId outcome failure = TaskEntry.settle runId outcome none := by
        rcases hrecorded hactive with rfl | rfl
        · rfl
        · rfl
      rw [Like, hreplayed, hnext, hsame]
    · intro hrecovered _
      have hattempts := hrecovered.attempts taskId
      rw [← getAttempts_lasting, ← getAttempts_lasting, hnext, hreplayed, getAttempts_settle,
        getAttempts_settle] at hattempts
      obtain ⟨entry, hget, a, hmem, hopen⟩ := (active_lasting r taskId runId).mpr hactive
      have hthere : a ∈ r.lasting.getAttempts taskId := by
        rw [getAttempts, hget]
        exact hmem
      have hended := List.map_inj_left.mp hattempts a hthere
      rw [if_pos hopen, if_pos hopen] at hended
      have hfailure := congrArg TaskAttempt.failure hended
      by_cases hcompleted : outcome = .completed
      · exact .inl hcompleted
      · simp only [ne_eq, hcompleted, not_false_eq_true, if_true] at hfailure
        exact .inr hfailure.symm
  · refine .of_quiet h (fun hact => absurd hact hactive) (if_neg hactive) ?_
    rw [next_complete_idle hactive]

theorem lifecycleState_modifyTask (r : TaskRegistry) (taskId : String) (state : TaskLifecycleState) :
    (r.modifyTask taskId (TaskEntry.setState state)).lifecycleState taskId =
      (r.lifecycleState taskId).map (fun _ => state) := by
  simp only [lifecycleState, modifyTask, Dict.get?_modify, if_pos]
  cases r.tasks.get? taskId <;> rfl

theorem restores_updateState (h : Like r r') (taskId : String) (state : TaskLifecycleState)
    (clock : Clock) : Restores r r' (.updateState taskId state) clock := by
  by_cases hknown : taskId ∈ r.tasks.keys
  · obtain ⟨entry, hget⟩ := (Dict.mem_keys_iff _ _).mp hknown
    have hstate : r.lifecycleState taskId = some entry.lifecycleState := by rw [lifecycleState, hget]; rfl
    have hnext : (r.next (.updateState taskId state)).lasting =
        r.lasting.modifyTask taskId (TaskEntry.setState state) := lasting_updateState hknown state
    have hemits : r.emission (.updateState taskId state) =
        (stateEvent state).map (fun e => .stateSet e taskId state) := if_pos hknown
    cases hevent : stateEvent state with
    | some event =>
      have hreplayed : (r'.replayed clock (r.emission (.updateState taskId state))).lasting =
          r.lasting.modifyTask taskId (TaskEntry.setState state) := by
        rw [hemits, hevent, ← h, ← state_of_stateEvent hevent]
        exact lasting_updateState (h.keys.symm ▸ hknown) event.state
      refine ⟨fun _ => hreplayed.trans hnext.symm, fun _ current _ => .inr ?_⟩
      rw [hevent]
      exact Option.some_ne_none event
    | none =>
      have hreplayed : r'.replayed clock (r.emission (.updateState taskId state)) = r' := by
        rw [hemits, hevent]
        rfl
      constructor
      · intro hrecorded
        have hsame : entry.lifecycleState = state :=
          (hrecorded _ hstate).resolve_right (fun hsome => hsome hevent)
        have hself : r.lasting.modifyTask taskId (TaskEntry.setState state) = r.lasting := by
          have htasks : r.lasting.tasks.modify taskId (TaskEntry.setState state) = r.lasting.tasks := by
            refine Dict.modify_eq_self (fun v hv => ?_)
            rw [get?_lasting, hget] at hv
            rw [← Option.some.inj hv, ← hsame]
            rfl
          simp only [modifyTask, htasks]
        rw [Like, hreplayed, hnext, hself]
        exact h
      · intro hrecovered current hcurrent
        have hshown := hrecovered.states taskId
        rw [hreplayed, ← lifecycleState_lasting, h, ← lifecycleState_lasting (r.next _), hnext,
          lifecycleState_modifyTask, lifecycleState_lasting, hcurrent] at hshown
        exact .inl (Option.some.inj hshown)
  · have hunknown : r.updateState taskId state = r := if_neg hknown
    refine .of_quiet h (fun current hcurrent => ?_) (if_neg hknown) ?_
    · rw [lifecycleState, (Dict.get?_eq_none_iff _ _).mpr hknown] at hcurrent
      cases hcurrent
    · show (r.updateState taskId state).lasting = r.lasting
      rw [hunknown]

/-- A callback completes without a failure payload, so its event says all it does. -/
theorem restores_transition (h : Like r r') (runId toState : String) (now : Int) (nowIso : String)
    (clock : Clock) : Restores r r' (.onRunLifecycleTransition runId toState now nowIso) clock := by
  have hbeat : Like (r.heartbeatForRun runId now) r' := h.trans (lasting_heartbeatForRun r runId now).symm
  cases hcompleting : r.completing (.onRunLifecycleTransition runId toState now nowIso) with
  | none =>
    refine .of_quiet h trivial ?_ ?_
    · simp only [emission, hcompleting]
    · rw [next_transition, hcompleting]
      exact lasting_heartbeatForRun r runId now
  | some c =>
    have hcomplete := restores_complete hbeat c.taskId c.runId c.outcome none nowIso clock
    have hemits : r.emission (.onRunLifecycleTransition runId toState now nowIso) =
        (r.heartbeatForRun runId now).emission (.completeAttempt c.taskId c.runId c.outcome none nowIso) := by
      rw [emission_of_completing hcompleting]
      simp only [emission, completing, (sameWork_heartbeatForRun r runId now).active]
    have hnext : r.next (.onRunLifecycleTransition runId toState now nowIso) =
        (r.heartbeatForRun runId now).next (.completeAttempt c.taskId c.runId c.outcome none nowIso) := by
      rw [next_transition, hcompleting]
      rfl
    refine ⟨fun _ => ?_, fun _ => trivial⟩
    rw [hemits, hnext]
    exact hcomplete.like (fun _ => .inr rfl)

/-- **A call is restored by the replay of its event exactly when the event says all it
does.** -/
theorem restores (h : Like r r') (call : TaskCall) (clock : Clock) : Restores r r' call clock := by
  cases call with
  | register d => exact restores_register h d clock
  | startAttempt a now => exact restores_start h a now clock
  | completeAttempt taskId runId outcome failure nowIso =>
    exact restores_complete h taskId runId outcome failure nowIso clock
  | updateState taskId state => exact restores_updateState h taskId state clock
  | heartbeat taskId now => exact .of_quiet h trivial rfl (lasting_heartbeat r taskId now)
  | heartbeatForRun runId now => exact .of_quiet h trivial rfl (lasting_heartbeatForRun r runId now)
  | getStalledTasks now => exact .of_quiet h trivial rfl (lasting_getStalledTasks r now)
  | onRunLifecycleTransition runId toState now nowIso =>
    exact restores_transition h runId toState now nowIso clock

/-! ### Runs -/

@[simp] theorem eventAppender_evictIfNeeded (r : TaskRegistry) :
    r.evictIfNeeded.eventAppender = r.eventAppender := by
  refine run_invariant (I := fun r' : TaskRegistry => r'.eventAppender = r.eventAppender) ?_ rfl r.toEvict
  intro r' evicted h
  unfold evict
  split <;> exact h

theorem eventAppender_completeAttempt (r : TaskRegistry) (taskId runId : String) (outcome : TaskOutcome)
    (failure : Option Value) (nowIso : String) :
    (r.completeAttempt taskId runId outcome failure nowIso).eventAppender =
      if r.Active taskId runId then
        r.eventAppender.map (·.appendTaskEvent (attemptEnded taskId runId outcome))
      else r.eventAppender := by
  unfold completeAttempt
  split <;> rfl

theorem eventAppender_heartbeatForRun (r : TaskRegistry) (runId : String) (now : Int) :
    (r.heartbeatForRun runId now).eventAppender = r.eventAppender := by
  unfold heartbeatForRun
  split <;> rfl

/-- **The appender gets the event a call emits, and nothing else.** -/
theorem eventAppender_next (r : TaskRegistry) (call : TaskCall) :
    (r.next call).eventAppender =
      match r.emission call with
      | some event => r.eventAppender.map (·.appendTaskEvent event)
      | none => r.eventAppender := by
  cases call with
  | register d =>
    by_cases hknown : d.taskId ∈ r.tasks.keys
    · rw [next_register_known hknown, emission]
      simp only [completing, if_pos hknown]
    · rw [next_register_new hknown, emission]
      simp only [completing, if_neg hknown]
      rw [← eventAppender_evictIfNeeded r]
      rfl
  | startAttempt a now =>
    by_cases hknown : a.taskId ∈ r.tasks.keys
    · rw [next_start_known hknown, emission]
      simp only [completing, if_pos hknown]
      rfl
    · rw [next_start_unknown hknown, emission]
      simp only [completing, if_neg hknown]
  | completeAttempt taskId runId outcome failure nowIso =>
    rw [emission_of_completing rfl]
    refine (eventAppender_completeAttempt r taskId runId outcome failure nowIso).trans ?_
    split <;> rfl
  | updateState taskId state =>
    simp only [next, perform, updateState, emission, completing]
    split
    · cases stateEvent state <;> rfl
    · rfl
  | heartbeat taskId now => rfl
  | heartbeatForRun runId now => exact eventAppender_heartbeatForRun r runId now
  | getStalledTasks now => rfl
  | onRunLifecycleTransition runId toState now nowIso =>
    rw [next_transition]
    cases hcompleting : r.completing (.onRunLifecycleTransition runId toState now nowIso) with
    | none =>
      simp only [emission, hcompleting]
      exact eventAppender_heartbeatForRun r runId now
    | some c =>
      rw [emission_of_completing hcompleting]
      simp only [eventAppender_completeAttempt, (sameWork_heartbeatForRun r runId now).active,
        eventAppender_heartbeatForRun]
      split <;> rfl

/-- A registry with an event log. -/
def logged (maxTasks maxEvents : Int) : TaskRegistry :=
  { maxTasks := maxTasks, eventAppender := some { maxEvents := maxEvents } }

/-- The fresh registry after a replay of what the appender holds. -/
def recover (clock : Nat → Clock) (maxTasks : Int) (r : TaskRegistry) : TaskRegistry :=
  ((r.eventAppender.getD {}).replayIntoRegistry clock { maxTasks := maxTasks }).1

theorem events_appendTaskEvent {log : InMemoryTaskEventLog}
    (h : log.events.isEmpty ∨ (log.events.length : Int) < log.maxEvents) (event : TaskEvent) :
    (log.appendTaskEvent event).events = log.events ++ [event] := by
  rcases h with hempty | hlt
  · rw [List.isEmpty_iff] at hempty
    simp only [InMemoryTaskEventLog.appendTaskEvent, hempty, List.drop_nil, ite_self]
  · exact InMemoryTaskEventLog.events_appendTaskEvent_of_lt hlt event

/-- As long as the log has room, the replay of the longer log is the replay of the log and
of the event that was added. -/
theorem recover_next {clock : Nat → Clock} {maxTasks : Int} {log : InMemoryTaskEventLog}
    {call : TaskCall} (hlog : r.eventAppender = some log) (hroomy : r.Roomy call) :
    recover clock maxTasks (r.next call) =
      (recover clock maxTasks r).replayed (clock log.events.length) (r.emission call) := by
  unfold recover InMemoryTaskEventLog.replayIntoRegistry
  rw [eventAppender_next]
  cases hemits : r.emission call with
  | none => rfl
  | some event =>
    have hroom := hroomy (by rw [hemits]; rfl) log hlog
    simp only [hlog, Option.map_some, Option.getD_some, events_appendTaskEvent hroom,
      replayFrom_append, Nat.zero_add]
    rfl

end TaskRegistry

open TaskRegistry in
/-- **When the task events restore the registry.** As long as the log drops no event, its
replay restores the registry after every prefix of a run of calls exactly when the event of
every call says all that the call does. -/
theorem recovery_iff (clock : Nat → Clock) (maxTasks maxEvents : Int) (calls : List TaskCall)
    (hroomy : Along next Roomy (logged maxTasks maxEvents) calls) :
    (∀ pre, pre <+: calls →
      Recovered (run next (logged maxTasks maxEvents) pre)
        (recover clock maxTasks (run next (logged maxTasks maxEvents) pre))) ↔
    Along next Recorded (logged maxTasks maxEvents) calls := by
  have hfresh : Like (logged maxTasks maxEvents) (recover clock maxTasks (logged maxTasks maxEvents)) := by
    unfold Like
    rfl
  refine forall_prefix_iff_along
    (I := fun r => Recovered r (recover clock maxTasks r))
    (J := fun r => (∃ log, r.eventAppender = some log) ∧ Like r (recover clock maxTasks r))
    (fun r h => h.2.recovered) ?_ ?_ ⟨⟨{ maxEvents := maxEvents }, rfl⟩, hfresh⟩ hroomy
  · rintro r call hroomy ⟨⟨log, hlog⟩, hlike⟩
    have hrestores := restores hlike call (clock log.events.length)
    rw [recover_next hlog hroomy]
    exact ⟨hrestores.shows, fun hrecorded => (hrestores.like hrecorded).recovered⟩
  · rintro r call hroomy ⟨⟨log, hlog⟩, hlike⟩ hrecorded
    constructor
    · rw [eventAppender_next, hlog]
      cases r.emission call <;> exact ⟨_, rfl⟩
    · rw [recover_next hlog hroomy]
      exact (restores hlike call (clock log.events.length)).like hrecorded

namespace Sample

def noon : Nat → Clock := fun _ => ⟨0, ""⟩

/-- A task whose backoff may grow to a minute. -/
def patient : TaskDescriptor := { task "task" with restartPolicy := { maxBackoffMs := 60000 } }

/-- It fails once and is retried. -/
def retried : List TaskRegistry.TaskCall :=
  [.register patient, .startAttempt (attempt "task" "first" 1) 0,
    .completeAttempt "task" "first" .failed none "", .updateState "task" .restarting,
    .startAttempt (attempt "task" "second" 2) 0]

end Sample

open TaskRegistry in
theorem recovery_iff_retried :
    (∀ pre, pre <+: Sample.retried →
      Recovered (run next (logged 10 10) pre) (recover Sample.noon 10 (run next (logged 10 10) pre))) ↔
    Along next Recorded (logged 10 10) Sample.retried :=
  recovery_iff Sample.noon 10 10 Sample.retried (by decide +kernel)

open TaskRegistry in
/-- The cap on the backoff is not in the event. -/
theorem cap_not_restored :
    ¬ Recovered (run next (logged 10 10) Sample.retried)
      (recover Sample.noon 10 (run next (logged 10 10) Sample.retried)) := by
  intro h
  have hlive : ((run next (logged 10 10) Sample.retried).get "task").map
      (fun d => d.restartPolicy.maxBackoffMs) = some 60000 := by decide +kernel
  have hreplayed : ((recover Sample.noon 10 (run next (logged 10 10) Sample.retried)).get "task").map
      (fun d => d.restartPolicy.maxBackoffMs) = some 30000 := by decide +kernel
  rw [h.descriptors, hlive] at hreplayed
  exact absurd hreplayed (by decide)

end AgentKernel.Tasks
