import AgentKernel.Projection.Fold
import AgentKernel.Facade.Notifications

/-! Bookkeeping signals and human gates in the projection.

No signal of the facade's bookkeeping is in the map of signal types, so each enters the
log under `signal.`, and the fold takes every such event for a wake-up: a run that has not
ended becomes ready (`bookkeeping_wakes`). That holds of the signal that opens a human
gate too, so a pending gate holds back only a run that had ended when the gate was opened
(`gates_hold_iff_opened_ended`). -/
namespace AgentKernel.Facade
open Lib Workflow Projection

/-! ### Histories -/

/-- What enters the log: the signal of a notification, as the workflow records it, or any
other event. -/
inductive Recorded where
  | notified (n : Notification) (sequence : Nat) (offset : Int) (now : String)
  | logged (event : RuntimeEvent)

def Recorded.events : Recorded → List RuntimeEvent
  | .notified n sequence offset now =>
    (signalCommit n.runId n.request.actorSignal sequence offset now).events
  | .logged event => [event]

/-- The projection of a run after a history of any runs. -/
def projected (runId : String) (history : List Recorded) : RunProjection :=
  foldProjection runId ((history.flatMap Recorded.events).filter (fun event => event.runId = runId))

/-- The run's actor may be given nothing to do: it waits, recovers, or was never ready. -/
def held : List RunLifecycleState := [.created, .waitingExternal, .recovering]

def ended : List RunLifecycleState := [.completed, .aborted]

/-- The operations that only keep the books: none of them decides that a run goes on. -/
def Notification.Bookkeeping : Notification → Prop
  | .openStage .. | .markStageState .. | .openBranch _ | .markBranchState _ | .openHumanGate _
  | .escalateRecovery .. | .heartbeatTimeout .. => True
  | .spawnChildRun .. | .submitApproval _ | .resolveEscalation .. => False

def Recorded.Opens (runId gateRef : String) : Recorded → Prop
  | .notified (.openHumanGate request) _ _ _ => request.runId = runId ∧ request.gateRef = gateRef
  | _ => False

def Recorded.Approves (runId gateRef : String) : Recorded → Prop
  | .notified (.submitApproval request) _ _ _ =>
    request.runId = runId ∧ request.approvalRef = gateRef ∧ request.approved = true
  | _ => False

/-- A gate of the run was opened and has not been approved since. -/
def Pending (runId : String) (history : List Recorded) : Prop :=
  ∃ pre opening post gateRef, history = pre ++ opening :: post ∧ opening.Opens runId gateRef ∧
    ∀ r ∈ post, ¬ r.Approves runId gateRef

/-! ### The wake-up -/

def bookkeepingSignals : List String :=
  ["stage_opened", "stage_state_updated", "branch_opened", "branch_state_updated",
   "human_gate_opened", "recovery_escalation", "heartbeat_timeout"]

theorem Notification.Bookkeeping.signalType {n : Notification} (h : n.Bookkeeping) :
    n.signalType ∈ bookkeepingSignals := by
  cases n with
  | spawnChildRun | submitApproval | resolveEscalation => exact h.elim
  | openStage | markStageState | openBranch | markBranchState | openHumanGate | escalateRecovery
  | heartbeatTimeout => simp [Notification.signalType, bookkeepingSignals]

/-- No table knows a bookkeeping signal, and no priority holds it back. -/
theorem bookkeeping_signals_unknown : ∀ t ∈ bookkeepingSignals,
    staticEventTransitions.lookup (signalEventType t) = none ∧
    resolveDynamicTransition (signalEventType t) = some ⟨.ready, false, true, none⟩ ∧
    eventOperationalPriority (signalEventType t) = none ∧
    signalEventType t ≠ "run.cancel_requested" ∧ signalEventType t ≠ "reconcile.failed" := by
  decide

/-- **An event no table knows wakes a run that has not ended.** -/
theorem applyProjectionEvent_wakes {p : RunProjection} {e : RuntimeEvent}
    (hopen : p.lifecycleState ∉ ended) (hstatic : staticEventTransitions.lookup e.eventType = none)
    (hdynamic : resolveDynamicTransition e.eventType = some ⟨.ready, false, true, none⟩)
    (hpriority : eventOperationalPriority e.eventType = none)
    (hcancel : e.eventType ≠ "run.cancel_requested") (hreconcile : e.eventType ≠ "reconcile.failed") :
    (applyProjectionEvent p e).readyForDispatch = true := by
  have hconflict : isLowerPriorityOperationalConflict p e = false := by
    unfold isLowerPriorityOperationalConflict
    rw [hpriority]
    cases projectionOperationalPriority p <;> rfl
  have hblocked : blockedByTerminalOrPriority p e = false := by
    simp only [ended, List.mem_cons, List.not_mem_nil, or_false, not_or] at hopen
    simp [blockedByTerminalOrPriority, hconflict, hopen.1, hopen.2]
  have hresolved : resolveProjectionTransition p e =
      (⟨.ready, false, true, none⟩, p.recoveryReason) := by
    simp only [resolveProjectionTransition, hblocked, hcancel, hreconcile, hstatic, hdynamic,
      Bool.false_eq_true, if_false]
  simp only [applyProjectionEvent, hresolved]

/-! ### One more entry -/

theorem projected_append (runId : String) (a b : List Recorded) :
    projected runId (a ++ b) = run applyProjectionEvent (projected runId a)
      ((b.flatMap Recorded.events).filter (fun event => event.runId = runId)) := by
  unfold projected
  rw [List.flatMap_append, List.filter_append, foldProjection_append]

/-- A signal is recorded as one event of its run. -/
theorem notified_events (n : Notification) (sequence : Nat) (offset : Int) (now : String) :
    ∃ e : RuntimeEvent, (Recorded.notified n sequence offset now).events = [e] ∧
      e.eventType = signalEventType n.signalType ∧ e.runId = n.runId :=
  ⟨_, rfl, rfl, rfl⟩

theorem projected_notified {n : Notification} (sequence : Nat) (offset : Int) (now : String)
    (history : List Recorded) : ∃ e : RuntimeEvent, e.eventType = signalEventType n.signalType ∧
      projected n.runId (history ++ [.notified n sequence offset now]) =
        applyProjectionEvent (projected n.runId history) e := by
  obtain ⟨e, hevents, htype, hrun⟩ := notified_events n sequence offset now
  refine ⟨e, htype, ?_⟩
  rw [projected_append, List.flatMap_cons, List.flatMap_nil, List.append_nil, hevents,
    List.filter_cons_of_pos (by simpa using hrun), List.filter_nil, run_cons, run_nil]

/-- **A bookkeeping signal wakes the run it is recorded for, unless it has ended.** -/
theorem bookkeeping_wakes {n : Notification} (hn : n.Bookkeeping) {history : List Recorded}
    (hopen : (projected n.runId history).lifecycleState ∉ ended) (sequence : Nat) (offset : Int)
    (now : String) :
    (projected n.runId (history ++ [.notified n sequence offset now])).readyForDispatch = true := by
  obtain ⟨e, htype, hprojected⟩ := projected_notified (n := n) sequence offset now history
  obtain ⟨hstatic, hdynamic, hpriority, hcancel, hreconcile⟩ :=
    bookkeeping_signals_unknown _ hn.signalType
  rw [← htype] at hstatic hdynamic hpriority hcancel hreconcile
  rw [hprojected]
  exact applyProjectionEvent_wakes hopen hstatic hdynamic hpriority hcancel hreconcile

/-- A run that has ended is never ready again. -/
theorem ended_stays_blocked {runId : String} {history : List Recorded}
    (h : (projected runId history).lifecycleState ∈ ended) (post : List Recorded) :
    (projected runId (history ++ post)).readyForDispatch = false := by
  have hbare := foldProjection_bare runId
    ((history.flatMap Recorded.events).filter (fun event => event.runId = runId))
  have hcoherent := foldProjection_coherent runId
    ((history.flatMap Recorded.events).filter (fun event => event.runId = runId))
  have hblocked : (projected runId history).readyForDispatch = false := by
    apply Bool.eq_false_iff.mpr
    intro hready
    have hstate : (projected runId history).lifecycleState = .ready ∨
        (projected runId history).lifecycleState = .dispatching := hcoherent.ready.mp hready
    rcases hstate with hs | hs
    · exact absurd (hs ▸ h) (by decide)
    · exact absurd (hs ▸ h) (by decide)
  rw [projected_append]
  simp only [ended, List.mem_cons, List.not_mem_nil, or_false] at h
  rcases h with hcompleted | haborted
  · have hsame := run_completed hbare hcompleted
      ((post.flatMap Recorded.events).filter (fun event => event.runId = runId))
    exact (congrArg RunProjection.readyForDispatch hsame).trans hblocked
  · have hsame := (run_aborted hbare hcoherent haborted
      ((post.flatMap Recorded.events).filter (fun event => event.runId = runId))).1
    exact (congrArg RunProjection.readyForDispatch hsame).trans hblocked

/-! ### Gates -/

/-- While a gate of the run is pending, the run is not ready. -/
def GatesHold (runId : String) (history : List Recorded) : Prop :=
  ∀ pre post, history = pre ++ post → Pending runId pre →
    (projected runId pre).readyForDispatch = false

/-- Every gate of the run was opened when the run had ended. -/
def OpenedEnded (runId : String) (history : List Recorded) : Prop :=
  ∀ pre opening post gateRef, history = pre ++ opening :: post → opening.Opens runId gateRef →
    (projected runId pre).lifecycleState ∈ ended

/-- An opening is the signal of an `open_human_gate`. -/
theorem Recorded.Opens.notified {runId gateRef : String} {r : Recorded} (h : r.Opens runId gateRef) :
    ∃ n sequence offset now, r = .notified n sequence offset now ∧ n.Bookkeeping ∧ n.runId = runId := by
  unfold Recorded.Opens at h
  split at h
  · rename_i request sequence offset now
    exact ⟨_, sequence, offset, now, rfl, trivial, h.1⟩
  · exact h.elim

theorem GatesHold.openedEnded {runId : String} {history : List Recorded} (h : GatesHold runId history) :
    OpenedEnded runId history := by
  intro pre opening post gateRef hsplit hopens
  by_contra hopen
  obtain ⟨n, sequence, offset, now, rfl, hn, rfl⟩ := hopens.notified
  have hready := bookkeeping_wakes hn hopen sequence offset now
  have hpending : Pending n.runId (pre ++ [.notified n sequence offset now]) :=
    ⟨pre, _, [], gateRef, rfl, hopens, fun r hr => absurd hr List.not_mem_nil⟩
  have hblocked := h (pre ++ [.notified n sequence offset now]) post (by rw [hsplit]; simp) hpending
  rw [hready] at hblocked
  cases hblocked

theorem OpenedEnded.gatesHold {runId : String} {history : List Recorded}
    (h : OpenedEnded runId history) : GatesHold runId history := by
  intro seen post hsplit hpending
  obtain ⟨pre, opening, later, gateRef, rfl, hopens, _⟩ := hpending
  have hended := h pre opening (later ++ post) gateRef (by rw [hsplit]; simp) hopens
  exact ended_stays_blocked hended (opening :: later)

/-- **What the books do to a run.** A bookkeeping signal makes every held run ready,
and pending gates hold back a run exactly when each was opened after the run had
ended. -/
theorem gates_hold_iff_opened_ended (runId : String) :
    (∀ (history : List Recorded) (n : Notification) (sequence : Nat) (offset : Int) (now : String),
      n.Bookkeeping → n.runId = runId → (projected runId history).lifecycleState ∈ held →
      (projected runId (history ++ [.notified n sequence offset now])).readyForDispatch = true) ∧
    ∀ history, GatesHold runId history ↔ OpenedEnded runId history := by
  constructor
  · intro history n sequence offset now hn hrun hheld
    obtain rfl := hrun
    refine bookkeeping_wakes hn ?_ sequence offset now
    revert hheld
    generalize (projected n.runId history).lifecycleState = state
    cases state <;> decide
  · intro history
    exact ⟨GatesHold.openedEnded, OpenedEnded.gatesHold⟩

namespace Sample

def waiting : Recorded := .logged (factEvent "run" "run.waiting_external" 1 none)

def completed : Recorded := .logged (factEvent "run" "run.completed" 1 none)

def stageOpened : Recorded := .notified (.openStage "route" "run" none) 1 2 ""

def gateOpened : Recorded :=
  .notified (.openHumanGate
    { gateRef := "gate"
      gateType := .finalApproval
      runId := "run"
      triggerReason := "irreversible"
      triggerSource := .system }) 1 2 ""

theorem completed_ended : (projected "run" [completed]).lifecycleState ∈ ended := by decide

end Sample

/-- A stage opened in a waiting run, and a gate opened in a completed one. -/
theorem stage_wakes_and_gate_holds :
    (projected "run" ([Sample.waiting] ++ [Sample.stageOpened])).readyForDispatch = true ∧
      GatesHold "run" [Sample.completed, Sample.gateOpened] := by
  obtain ⟨hwakes, hgates⟩ := gates_hold_iff_opened_ended "run"
  refine ⟨hwakes _ (.openStage "route" "run" none) 1 2 "" trivial rfl (by decide), ?_⟩
  apply (hgates _).mpr
  intro pre opening post gateRef hsplit hopens
  rcases List.cons_eq_append_iff.mp hsplit with ⟨_, hfirst⟩ | ⟨front, rfl, hrest⟩
  · obtain ⟨rfl, _⟩ := List.cons.inj hfirst
    exact hopens.elim
  · rcases List.cons_eq_append_iff.mp hrest with ⟨rfl, _⟩ | ⟨tail, rfl, hnone⟩
    · exact Sample.completed_ended
    · simp at hnone

/-- Opening a stage, and opening a gate, makes a waiting run ready. -/
theorem waiting_run_unblocked :
    (projected "run" [Sample.waiting]).lifecycleState = .waitingExternal ∧
      (projected "run" [Sample.waiting, Sample.stageOpened]).readyForDispatch = true ∧
      Pending "run" [Sample.waiting, Sample.gateOpened] ∧
      (projected "run" [Sample.waiting, Sample.gateOpened]).readyForDispatch = true :=
  ⟨by decide, by decide, ⟨[Sample.waiting], Sample.gateOpened, [], "gate", rfl, ⟨rfl, rfl⟩, by simp⟩,
    by decide⟩

end AgentKernel.Facade
