import Mathlib.Logic.Function.Basic
import AgentKernel.Lib.Dict
import AgentKernel.Lib.Run
import AgentKernel.Lib.Text

/-! The run heartbeat monitor.

Hook callbacks record when a run was last seen and in which state; a sweep lists the runs that
have been silent for too long and signals them one after the other, waiting for each delivery.
While it waits anything else may happen, another sweep included. The list is made once: a run
that acts or is cleared before its turn is signalled all the same. -/
namespace AgentKernel.Runtime
open Lib

/-! ### The monitor -/

def monitoredStates : List String :=
  ["dispatching", "waiting_result", "waiting_external", "waiting_human_input", "recovering"]

def defaultStateTimeouts : List (String × Int) :=
  [("dispatching", 300), ("waiting_result", 600), ("waiting_external", 3600),
   ("waiting_human_input", 86400), ("recovering", 180)]

/-- The overrides of `HeartbeatPolicy.state_timeout_s`. -/
abbrev HeartbeatPolicy := Dict String Int

/-- The timeout in seconds of a monitored state. -/
def HeartbeatPolicy.timeoutFor (policy : HeartbeatPolicy) (lifecycleState : String) : Option Int :=
  if lifecycleState ∉ monitoredStates then none
  else some ((policy.get? lifecycleState).getD ((defaultStateTimeouts.lookup lifecycleState).getD 600))

structure RunHeartbeatEntry where
  runId : String
  lastSeenMs : Int
  lifecycleState : String
  heartbeatCount : Nat
  deriving DecidableEq, Repr

structure RunHeartbeatMonitor where
  entries : Dict String RunHeartbeatEntry
  /-- The runs already signalled. -/
  timedOut : List String

namespace RunHeartbeatMonitor

/-- `self._timed_out.discard`. -/
def discard (m : RunHeartbeatMonitor) (runId : String) : RunHeartbeatMonitor :=
  { m with timedOut := m.timedOut.filter (· ≠ runId) }

def touched (entry : Option RunHeartbeatEntry) (runId : String) (lifecycleState : Option String)
    (timestampMs : Int) : RunHeartbeatEntry :=
  match entry with
  | none => ⟨runId, timestampMs, (Text.orElse lifecycleState none).getD "ready", 1⟩
  | some entry =>
    { entry with
      lastSeenMs := timestampMs
      heartbeatCount := entry.heartbeatCount + 1
      lifecycleState := lifecycleState.getD entry.lifecycleState }

/-- `_touch`. -/
def touch (m : RunHeartbeatMonitor) (runId : String) (lifecycleState : Option String)
    (timestampMs : Int) : RunHeartbeatMonitor :=
  { m with entries := m.entries.set runId (touched (m.entries.get? runId) runId lifecycleState timestampMs)
    }.discard runId

def clear (m : RunHeartbeatMonitor) (runId : String) : RunHeartbeatMonitor :=
  { m with entries := m.entries.erase runId }.discard runId

def overdue (policy : HeartbeatPolicy) (now : Int) (m : RunHeartbeatMonitor)
    (e : String × RunHeartbeatEntry) : Bool :=
  decide (e.1 ∉ m.timedOut) &&
    (match policy.timeoutFor e.2.lifecycleState with
    | none => false
    | some timeoutS => decide (now - e.2.lastSeenMs ≥ 1000 * timeoutS))

/-- The runs a sweep lists. -/
def timedOutRuns (policy : HeartbeatPolicy) (now : Int) (m : RunHeartbeatMonitor) : List String :=
  (m.entries.entries.filter (m.overdue policy now)).map Prod.fst

/-- `get_timed_out_runs`; a run has one entry, so marking it in the loop hides no other. -/
def getTimedOutRuns (policy : HeartbeatPolicy) (now : Int) (m : RunHeartbeatMonitor) :
    List String × RunHeartbeatMonitor :=
  (m.timedOutRuns policy now, { m with timedOut := m.timedOut ++ m.timedOutRuns policy now })

/-- `last_seen_age_s`, in milliseconds. -/
def lastSeenAgeMs (m : RunHeartbeatMonitor) (now : Int) (runId : String) : Option Int :=
  (m.entries.get? runId).map (fun entry => now - entry.lastSeenMs)

end RunHeartbeatMonitor

/-! ### Sweeps among callbacks -/

/-- How the delivery of a signal ends. What is no `Exception`, a cancellation say, ends the
sweep. -/
inductive Delivery where
  | succeeded
  | failed
  | cancelled
  deriving DecidableEq, Repr

/-- A `watchdog_once`: the first of the runs it still has is being signalled. -/
structure Sweep where
  rest : List String
  /-- The runs that were silent when it began and whose last delivery had failed. -/
  due : List String

structure Signal where
  sweep : Nat
  runId : String
  silentMs : Int
  /-- Whether the run was silent when the signal was sent. -/
  justified : Bool
  deriving DecidableEq, Repr

structure World where
  monitor : RunHeartbeatMonitor
  now : Int
  sweeps : List Sweep
  signals : List Signal
  /-- The newest activity recorded of a run since it is tracked. -/
  newest : String → Int
  /-- The deliveries that succeeded since the last activity of a run. -/
  delivered : String → Nat
  /-- The runs whose delivery failed since the last sweep began. -/
  failed : List String

inductive Label where
  | onTurnStateTransition (runId : String) (timestampMs : Int)
  | onRunLifecycleTransition (runId toState : String) (timestampMs : Int)
  | onLlmCall (runId : String)
  | onActionDispatch (runId : String)
  | onRecoveryTriggered (runId : String)
  | recordHeartbeat (runId : String)
  | clear (runId : String)
  | tick (ms : Nat)
  | sweep
  | ends (i : Nat) (delivery : Delivery)
  deriving DecidableEq, Repr

namespace World

def start (now : Int) : World :=
  { monitor := ⟨Dict.empty, []⟩
    now := now
    sweeps := []
    signals := []
    newest := fun _ => now
    delivered := fun _ => 0
    failed := [] }

/-- The run is tracked, in a monitored state, and its newest activity is its timeout old. -/
def silent (policy : HeartbeatPolicy) (w : World) (runId : String) : Bool :=
  match w.monitor.entries.get? runId with
  | none => false
  | some entry =>
    match policy.timeoutFor entry.lifecycleState with
    | none => false
    | some timeoutS => decide (w.newest runId + 1000 * timeoutS ≤ w.now)

def touch (w : World) (runId : String) (lifecycleState : Option String) (timestampMs : Int) : World :=
  { w with
    monitor := w.monitor.touch runId lifecycleState timestampMs
    newest := Function.update w.newest runId
      (match w.monitor.entries.get? runId with
      | none => timestampMs
      | some _ => max (w.newest runId) timestampMs)
    delivered := Function.update w.delivered runId 0 }

def clear (w : World) (runId : String) : World := { w with monitor := w.monitor.clear runId }

/-- The runs a sweep still has. -/
def rest (w : World) (i : Nat) : List String := ((w.sweeps[i]?).map Sweep.rest).getD []

/-- The sweep signals the next of its runs. -/
def send (policy : HeartbeatPolicy) (w : World) (i : Nat) : World :=
  match w.rest i with
  | [] => w
  | runId :: _ =>
    { w with
      signals := w.signals ++
        [⟨i, runId, (w.monitor.lastSeenAgeMs w.now runId).getD 0, w.silent policy runId⟩] }

/-- A sweep lists what it has to do. -/
def begins (policy : HeartbeatPolicy) (w : World) : World :=
  let (listed, monitor) := w.monitor.getTimedOutRuns policy w.now
  { w with
    monitor := monitor
    sweeps := w.sweeps ++ [⟨listed, w.failed.filter (w.silent policy)⟩]
    failed := [] }

/-- `watchdog_once`, up to its first await. -/
def sweep (policy : HeartbeatPolicy) (w : World) : World := (w.begins policy).send policy w.sweeps.length

/-- The sweep has no more to do with its first run. -/
def pass (w : World) (i : Nat) (rest : List String) : World :=
  { w with sweeps := w.sweeps.modify i (fun s => { s with rest := rest }) }

def delivers (w : World) (i : Nat) (runId : String) (rest : List String) : World :=
  { w.pass i rest with delivered := Function.update w.delivered runId (w.delivered runId + 1) }

/-- A run whose delivery failed may be listed again. -/
def fails (w : World) (i : Nat) (runId : String) (rest : List String) : World :=
  { w.pass i rest with
    monitor := w.monitor.discard runId
    failed := runId :: w.failed }

/-- `watchdog_once`, from the end of a delivery to the next await. -/
def ends (policy : HeartbeatPolicy) (w : World) (i : Nat) (delivery : Delivery) : World :=
  match w.rest i with
  | [] => w
  | runId :: rest =>
    match delivery with
    | .succeeded => (w.delivers i runId rest).send policy i
    | .failed => (w.fails i runId rest).send policy i
    | .cancelled => { w.pass i [] with failed := runId :: w.failed }

def step (policy : HeartbeatPolicy) (w : World) : Label → World
  | .onTurnStateTransition runId timestampMs => w.touch runId none timestampMs
  | .onRunLifecycleTransition runId toState timestampMs =>
    let touched := w.touch runId (some toState) timestampMs
    if toState = "completed" ∨ toState = "aborted" then touched.clear runId else touched
  | .onLlmCall runId => w.touch runId none w.now
  | .onActionDispatch runId => w.touch runId none w.now
  | .onRecoveryTriggered _ => w
  | .recordHeartbeat runId => w.touch runId none w.now
  | .clear runId => w.clear runId
  | .tick ms => { w with now := w.now + ms }
  | .sweep => w.sweep policy
  | .ends i delivery => w.ends policy i delivery

end World

/-! ### The law of heartbeats -/

/-- The sweep has signalled the run. -/
def World.Sent (w : World) (i : Nat) (runId : String) : Prop :=
  ∃ signal ∈ w.signals, signal.sweep = i ∧ signal.runId = runId

structure HeartbeatLaw (w : World) : Prop where
  /-- Whoever is signalled is silent. -/
  sound : ∀ signal ∈ w.signals, signal.justified = true
  /-- One delivery between two activities. -/
  once : ∀ runId, w.delivered runId ≤ 1
  /-- The next sweep signals a run whose delivery failed, in its turn. -/
  resent : ∀ i s, w.sweeps[i]? = some s → ∀ runId ∈ s.due, runId ∈ s.rest.tail ∨ w.Sent i runId

/-- An activity that no sweep in progress is overtaken by, and that is none of the past. -/
def Timely (w : World) (runId : String) (timestampMs : Int) : Prop :=
  (∀ s ∈ w.sweeps, runId ∉ s.rest) ∧
    ∀ entry ∈ w.monitor.entries.get? runId, entry.lastSeenMs ≤ timestampMs

/-- Nothing comes between a list and its signals. -/
def Calm (w : World) : Label → Prop
  | .onTurnStateTransition runId timestampMs => Timely w runId timestampMs
  | .onRunLifecycleTransition runId _ timestampMs => Timely w runId timestampMs
  | .onLlmCall runId | .onActionDispatch runId | .recordHeartbeat runId => Timely w runId w.now
  | .clear runId => ∀ s ∈ w.sweeps, runId ∉ s.rest.tail
  | .ends _ .cancelled => False
  | .ends _ .succeeded | .ends _ .failed | .onRecoveryTriggered _ | .tick _ | .sweep => True

instance (w : World) (runId : String) (timestampMs : Int) : Decidable (Timely w runId timestampMs) :=
  inferInstanceAs (Decidable (_ ∧ _))

instance decidableCalm (w : World) : (label : Label) → Decidable (Calm w label)
  | .onTurnStateTransition .. | .onRunLifecycleTransition .. | .onLlmCall _ | .onActionDispatch _
  | .recordHeartbeat _ => inferInstanceAs (Decidable (Timely ..))
  | .clear _ => inferInstanceAs (Decidable (∀ _ ∈ _, _))
  | .ends _ .cancelled => .isFalse id
  | .ends _ .succeeded | .ends _ .failed | .onRecoveryTriggered _ | .tick _ | .sweep => .isTrue trivial

/-! ### What the monitor does -/

variable {policy : HeartbeatPolicy}

namespace RunHeartbeatMonitor
variable {m : RunHeartbeatMonitor} {runId r : String}

theorem mem_discard : r ∈ (m.discard runId).timedOut ↔ r ∈ m.timedOut ∧ r ≠ runId := by
  simp [discard]

theorem get?_touch (lifecycleState : Option String) (timestampMs : Int) :
    (m.touch runId lifecycleState timestampMs).entries.get? r =
      if r = runId then some (touched (m.entries.get? runId) runId lifecycleState timestampMs)
      else m.entries.get? r := Dict.get?_set ..

theorem get?_clear : (m.clear runId).entries.get? r = if r = runId then none else m.entries.get? r :=
  Dict.get?_erase ..

theorem touched_lastSeenMs (entry : Option RunHeartbeatEntry) (runId : String)
    (lifecycleState : Option String) (timestampMs : Int) :
    (touched entry runId lifecycleState timestampMs).lastSeenMs = timestampMs := by
  cases entry <;> rfl

theorem timedOutRuns_nodup (now : Int) : (m.timedOutRuns policy now).Nodup :=
  List.Nodup.sublist (List.Sublist.map Prod.fst List.filter_sublist) m.entries.nodup

/-- A sweep lists the overdue runs that have not been signalled. -/
theorem mem_timedOutRuns {now : Int} :
    r ∈ m.timedOutRuns policy now ↔ r ∉ m.timedOut ∧ ∃ entry timeoutS, m.entries.get? r = some entry ∧
      policy.timeoutFor entry.lifecycleState = some timeoutS ∧
        entry.lastSeenMs + 1000 * timeoutS ≤ now := by
  unfold timedOutRuns
  rw [List.mem_map]
  constructor
  · rintro ⟨⟨k, entry⟩, he, rfl⟩
    obtain ⟨hmem, hdue⟩ := List.mem_filter.mp he
    obtain ⟨hunsignalled, hage⟩ := Bool.and_eq_true_iff.mp hdue
    refine ⟨of_decide_eq_true hunsignalled, entry, ?_⟩
    cases htimeout : policy.timeoutFor entry.lifecycleState with
    | none => simp [htimeout] at hage
    | some timeoutS =>
      simp only [htimeout, decide_eq_true_eq] at hage
      exact ⟨timeoutS, (m.entries.mem_entries_iff k entry).mp hmem, rfl, by omega⟩
  · rintro ⟨hunsignalled, entry, timeoutS, hget, htimeout, hage⟩
    refine ⟨(r, entry), List.mem_filter.mpr ⟨(m.entries.mem_entries_iff r entry).mpr hget, ?_⟩, rfl⟩
    simp only [overdue, htimeout, hunsignalled, not_false_eq_true, decide_true, Bool.true_and,
      decide_eq_true_eq]
    omega

end RunHeartbeatMonitor

/-! ### What a sweep has -/

namespace World
variable {w : World} {i j : Nat} {r : String}

theorem silent_iff : w.silent policy r = true ↔ ∃ entry timeoutS,
    w.monitor.entries.get? r = some entry ∧ policy.timeoutFor entry.lifecycleState = some timeoutS ∧
      w.newest r + 1000 * timeoutS ≤ w.now := by
  unfold silent
  cases w.monitor.entries.get? r with
  | none => simp
  | some entry => cases htimeout : policy.timeoutFor entry.lifecycleState <;> simp [htimeout]

/-- Being silent is about the entries, the activities and the clock. -/
theorem silent_congr {w' : World} (hentry : w'.monitor.entries.get? r = w.monitor.entries.get? r)
    (hnewest : w'.newest r = w.newest r) (hnow : w.now ≤ w'.now) (h : w.silent policy r = true) :
    w'.silent policy r = true := by
  obtain ⟨entry, timeoutS, hget, htimeout, hage⟩ := silent_iff.mp h
  exact silent_iff.mpr ⟨entry, timeoutS, hentry.trans hget, htimeout, by omega⟩

theorem rest_eq {s : Sweep} (h : w.sweeps[i]? = some s) : w.rest i = s.rest := by simp [rest, h]

theorem exists_sweep (h : r ∈ w.rest i) : ∃ s ∈ w.sweeps, w.sweeps[i]? = some s ∧ w.rest i = s.rest := by
  cases hs : w.sweeps[i]? with
  | none => simp [rest, hs] at h
  | some s => exact ⟨s, List.mem_of_getElem? hs, rfl, rest_eq hs⟩

theorem not_mem_rest (h : ∀ s ∈ w.sweeps, r ∉ s.rest) (i : Nat) : r ∉ w.rest i := by
  intro hr
  obtain ⟨s, hs, -, hrest⟩ := exists_sweep hr
  exact h s hs (hrest ▸ hr)

theorem not_mem_rest_tail (h : ∀ s ∈ w.sweeps, r ∉ s.rest.tail) (i : Nat) : r ∉ (w.rest i).tail := by
  intro hr
  obtain ⟨s, hs, -, hrest⟩ := exists_sweep (List.mem_of_mem_tail hr)
  exact h s hs (hrest ▸ hr)

theorem rest_pass (h : r ∈ w.rest i) (rest : List String) :
    (w.pass i rest).rest j = if j = i then rest else w.rest j := by
  obtain ⟨s, -, hs, -⟩ := exists_sweep h
  by_cases hj : j = i
  · subst hj
    simp [World.rest, pass, hs]
  · simp [World.rest, pass, hj, Ne.symm hj]

theorem rest_begins : (w.begins policy).rest j =
    if j = w.sweeps.length then w.monitor.timedOutRuns policy w.now else w.rest j := by
  show (((w.sweeps ++ [_])[j]?).map Sweep.rest).getD [] = _
  split
  next hj =>
    subst hj
    simp
  next hj =>
    rcases Nat.lt_or_gt_of_ne hj with hlt | hgt
    · rw [List.getElem?_append_left hlt]
      rfl
    · rw [List.getElem?_eq_none (by simp; omega), rest, List.getElem?_eq_none (by omega)]

end World

end AgentKernel.Runtime
