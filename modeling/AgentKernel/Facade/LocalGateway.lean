import AgentKernel.Facade.PolicyVersions
import AgentKernel.Facade.TraceEvents
import AgentKernel.Projection.Children
import AgentKernel.Workflow.Solo

/-! The facade over workflows that run in its own process.

The local gateway keeps one instance of the workflow for every run; the instances share the
log and the other services, and a signal is a call of the instance of its run
(`signal_delivered`). Every instance remembers the signals it has seen by type and cause,
and the facade gives most operations a fixed cause: the second one of a kind is dropped
without an error. So the log gains the signal of every call exactly when their tokens are
new and distinct, and of the children spawned only the first is listed
(`notifications_recorded_iff`). -/
namespace AgentKernel.Facade
open Lib Events Projection Workflow

/-! ### The gateway -/

/-- The instances, and what they share; `world.process.actor` is the one that moves. -/
structure LocalWorkflowGateway (σ : Type) where
  workflowIdPrefix : String := "run"
  workflows : Dict String Actor := Dict.empty
  world : World σ

/-- A facade; without an event log it records no trace events. -/
structure KernelFacade (σ : Type) where
  gateway : LocalWorkflowGateway σ
  registry : Registry := {}
  hasEventLog : Bool := true

/-- The operations beside `spawn_child_run`, of those that only tell the run about something. -/
def Notification.tells : Notification → Bool
  | .openStage .. | .markStageState .. | .openBranch _ | .markBranchState _ | .openHumanGate _
  | .resolveEscalation .. => true
  | .spawnChildRun .. | .submitApproval _ | .escalateRecovery .. | .heartbeatTimeout .. => false

inductive FacadeCall where
  | spawnChildRun (request : SpawnChildRunRequest)
  | operate (n : Notification) (tells : n.tells = true)

section
variable {σ : Type}

namespace LocalWorkflowGateway

/-- The shared world, with an instance in it. -/
def bring (g : LocalWorkflowGateway σ) (a : Actor) : World σ :=
  { g.world with process := { g.world.process with actor := a } }

/-- The instance of a run after a call. -/
def keep (g : LocalWorkflowGateway σ) (runId : String) (w : World σ) : LocalWorkflowGateway σ :=
  { g with
    workflows := g.workflows.set runId w.process.actor
    world := w }

/-- `_workflow_id_for`. -/
def workflowIdFor (g : LocalWorkflowGateway σ) (runId : String) : String :=
  g.workflowIdPrefix ++ ":" ++ runId

variable (K : Kernel σ)

/-- `start_workflow`; a run that is there raises. -/
def startWorkflow (g : LocalWorkflowGateway σ) (input : RunInput) (now : String) :
    Option (LocalWorkflowGateway σ) :=
  match g.workflows.get? input.runId with
  | some _ => none
  | none => some (g.keep input.runId (attend K (g.bring {}) (.run input) (calms 1 now)))

/-- `signal_workflow`; a run that is not there raises. -/
def signalWorkflow (g : LocalWorkflowGateway σ) (runId : String) (request : SignalRunRequest)
    (now : String) : Option (LocalWorkflowGateway σ) :=
  match g.workflows.get? runId with
  | none => none
  | some a =>
    some (g.keep runId (attend K (g.bring a) (.signal request.actorSignal) (calms 6 now)))

end LocalWorkflowGateway

/-! ### The facade -/

/-- The child a spawn names to its parent; a run without an id goes by its workflow's. -/
def spawnedChild (g : LocalWorkflowGateway σ) (request : SpawnChildRunRequest) : String :=
  let runId := (Gateway.localFsm.childInput request).toOption.elim "" RunInput.runId
  if runId = "" then g.workflowIdFor runId else runId

def FacadeCall.notification (g : LocalWorkflowGateway σ) : FacadeCall → Notification
  | .spawnChildRun request => .spawnChildRun request.parentRunId (spawnedChild g request)
  | .operate n _ => n

namespace KernelFacade
variable (K : Kernel σ)

/-- `_append_trace_event`, for the operations that have one. -/
def appendTraceEvent (f : KernelFacade σ) (n : Notification) (stamp : Stamp) : KernelFacade σ :=
  match n.traceEvent stamp.now with
  | none => f
  | some e =>
    if f.hasEventLog then
      { f with gateway := { f.gateway with
          world := attend K f.gateway.world (.write (traceCommit n.runId e stamp)) (calms 1 stamp.now) } }
    else f

/-- The signal of an operation, and then its trace event; false when the gateway raises. -/
def notify (f : KernelFacade σ) (n : Notification) (stamp : Stamp) : KernelFacade σ × Bool :=
  match f.gateway.signalWorkflow K n.runId n.request stamp.now with
  | none => (f, false)
  | some gateway => (({ f with gateway := gateway } : KernelFacade σ).appendTraceEvent K n stamp, true)

/-- A call, and whether it returns. What a spawn reads of its parent changes no log and
is left out. -/
def perform (f : KernelFacade σ) : FacadeCall × Stamp → KernelFacade σ × Bool
  | (.spawnChildRun request, stamp) =>
    match (Gateway.localFsm.childInput request).toOption.bind (f.gateway.startWorkflow K · stamp.now) with
    | none => (f, false)
    | some gateway => ({ f with gateway := gateway } : KernelFacade σ).notify K
        (.spawnChildRun request.parentRunId (spawnedChild f.gateway request)) stamp
  | (.operate n _, stamp) =>
    let r := f.registry.touchRun n.runId
    match (r.of n.runId).perform stamp.now n with
    | .raised | .dropped => ({ f with registry := r }, false)
    | .goesOn record =>
      ({ f with registry := r.update n.runId record } : KernelFacade σ).notify K n stamp

def next (f : KernelFacade σ) (call : FacadeCall × Stamp) : KernelFacade σ := (f.perform K call).1

/-- The call returns. -/
def Succeeds (f : KernelFacade σ) (call : FacadeCall × Stamp) : Prop := (f.perform K call).2 = true

/-- The events of a run. -/
def eventsOf (f : KernelFacade σ) (runId : String) : List RuntimeEvent :=
  f.gateway.world.services.journal.eventsOf runId

/-- The projection of a run. -/
def projectionOf (f : KernelFacade σ) (runId : String) : RunProjection :=
  foldOf f.gateway.world.services.journal runId

/-- The services keep projections of the log, and every instance is kept under its run. -/
structure Healthy (f : KernelFacade σ) : Prop where
  upToDate : f.gateway.world.services.UpToDate
  named : ∀ runId a, f.gateway.workflows.get? runId = some a → a.runId = some runId

end KernelFacade

/-- What the calls tell a run. -/
def notificationsTo (g : LocalWorkflowGateway σ) (runId : String) (calls : List (FacadeCall × Stamp)) :
    List Notification :=
  (calls.map (fun call => call.1.notification g)).filter (fun n => n.runId = runId)

end

/-! ### Which signals are taken -/

/-- The token under which the workflow remembers the signal. -/
def Notification.token? (n : Notification) : Option String := n.request.actorSignal.token?

def Notification.hasBeenSeen (n : Notification) (seen : List String) : Bool :=
  match n.token? with
  | none => false
  | some token => decide (token ∈ seen)

/-- The tokens after a signal. -/
def seenAfter (seen : List String) (n : Notification) : List String :=
  if n.hasBeenSeen seen then seen else n.token?.toList ++ seen

/-- Those that are taken: the others are dropped. -/
def accepted (seen : List String) : List Notification → List Notification
  | [] => []
  | n :: rest =>
    if n.hasBeenSeen seen then accepted seen rest else n :: accepted (seenAfter seen n) rest

/-- The tokens are new, and no two are the same. -/
def Fresh (seen : List String) (ns : List Notification) : Prop :=
  (ns.filterMap Notification.token?).Nodup ∧ ∀ token ∈ ns.filterMap Notification.token?, token ∉ seen

theorem accepted_append (seen : List String) (a b : List Notification) :
    accepted seen (a ++ b) = accepted seen a ++ accepted (a.foldl seenAfter seen) b := by
  induction a generalizing seen with
  | nil => rfl
  | cons n rest ih =>
    simp only [List.cons_append, accepted, List.foldl_cons]
    by_cases hseen : n.hasBeenSeen seen = true
    · have hafter : seenAfter seen n = seen := if_pos hseen
      rw [if_pos hseen, if_pos hseen, ih, hafter]
    · rw [if_neg hseen, if_neg hseen, ih, List.cons_append]

theorem accepted_sublist (seen : List String) (ns : List Notification) : (accepted seen ns).Sublist ns := by
  induction ns generalizing seen with
  | nil => exact List.Sublist.slnil
  | cons n rest ih =>
    unfold accepted
    split
    · exact (ih seen).cons n
    · exact (ih _).cons_cons n

/-- **All are taken exactly when their tokens are fresh.** -/
theorem accepted_all_iff (seen : List String) (ns : List Notification) : accepted seen ns = ns ↔ Fresh seen ns := by
  induction ns generalizing seen with
  | nil => exact ⟨fun _ => ⟨List.nodup_nil, fun _ h => absurd h List.not_mem_nil⟩, fun _ => rfl⟩
  | cons n rest ih =>
    cases htoken : n.token? with
    | none =>
      have hseen : n.hasBeenSeen seen = false := by
        unfold Notification.hasBeenSeen
        rw [htoken]
      have hafter : seenAfter seen n = seen := by
        unfold seenAfter
        rw [hseen, htoken]
        rfl
      unfold accepted Fresh
      rw [hseen, if_neg Bool.false_ne_true, hafter, List.cons.injEq, List.filterMap_cons_none htoken, ih]
      exact ⟨fun h => h.2, fun h => ⟨rfl, h⟩⟩
    | some token =>
      have hmem : n.hasBeenSeen seen = decide (token ∈ seen) := by
        unfold Notification.hasBeenSeen
        rw [htoken]
      unfold accepted Fresh
      rw [List.filterMap_cons_some htoken, hmem]
      by_cases hseen : token ∈ seen
      · rw [if_pos (decide_eq_true hseen)]
        constructor
        · intro hall
          have hle := (accepted_sublist seen rest).length_le
          rw [hall, List.length_cons] at hle
          omega
        · intro ⟨_, hnew⟩
          exact absurd hseen (hnew token List.mem_cons_self)
      · have hafter : seenAfter seen n = token :: seen := by
          unfold seenAfter
          rw [hmem, htoken, if_neg (by simpa using hseen)]
          rfl
        rw [if_neg (by simpa using hseen), hafter, List.cons.injEq, ih]
        unfold Fresh
        simp only [List.nodup_cons, List.mem_cons, not_or, forall_eq_or_imp]
        constructor
        · intro ⟨_, hnodup, hnew⟩
          exact ⟨⟨fun hmem => (hnew token hmem).1 rfl, hnodup⟩, hseen, fun t ht => (hnew t ht).2⟩
        · intro ⟨⟨hnot, hnodup⟩, _, hnew⟩
          exact ⟨trivial, hnodup, fun t ht => ⟨fun heq => hnot (heq ▸ ht), hnew t ht⟩⟩


/-! ### What the log gains -/

/-- The type and the payload a notification is recorded with. -/
def Notification.record (n : Notification) : String × Option Payload :=
  (signalEventType n.signalType, n.signalPayload)

/-- The types and payloads of the facts among events. -/
def factsOf (events : List RuntimeEvent) : List (String × Option Payload) :=
  (events.filter (fun e => e.eventAuthority = .authoritativeFact)).map
    (fun e => (e.eventType, e.payloadJson))

def traceEventTypes : List String :=
  ["trace.stage_opened", "trace.stage_state_changed", "trace.branch_opened",
   "trace.branch_state_changed", "trace.human_gate_opened", "trace.human_gate_resolved",
   "trace.escalation_resolved"]

/-- Events that record notifications, and trace events. -/
structure Records (ns : List Notification) (events : List RuntimeEvent) : Prop where
  facts : factsOf events = ns.map Notification.record
  traces : ∀ e ∈ events, e.eventAuthority = .authoritativeFact ∨
    (e.eventAuthority = .derivedReplayable ∧ e.eventType ∈ traceEventTypes)

theorem records_nil : Records [] [] where
  facts := rfl
  traces := fun _ h => absurd h List.not_mem_nil

theorem Records.append {a b : List Notification} {events events' : List RuntimeEvent} (h : Records a events)
    (h' : Records b events') : Records (a ++ b) (events ++ events') where
  facts := by
    have hfacts := h.facts
    have hfacts' := h'.facts
    unfold factsOf at hfacts hfacts' ⊢
    rw [List.filter_append, List.map_append, List.map_append, hfacts, hfacts']
  traces := by
    intro e he
    rcases List.mem_append.mp he with he | he
    · exact h.traces e he
    · exact h'.traces e he

theorem normalizeSignalPayload_plain {signalType : String} {payload : Option Payload}
    (htype : signalType ∉ ["cancel_requested", "hard_failure", "timeout"]) (hne : payload ≠ some []) :
    normalizeSignalPayload signalType payload = payload := by
  simp only [List.mem_cons, List.not_mem_nil, or_false, not_or] at htype
  obtain ⟨h1, h2, h3⟩ := htype
  unfold normalizeSignalPayload
  simp only [if_neg h1, if_neg h2, if_neg h3]
  match payload, hne with
  | none, _ => rfl
  | some [], hne => exact absurd rfl hne
  | some (entry :: rest), _ => rfl

/-- No payload of an operation is touched on its way. -/
theorem normalized_payload (n : Notification) :
    normalizeSignalPayload n.signalType n.signalPayload = n.signalPayload := by
  apply normalizeSignalPayload_plain
  · cases n <;> simp [Notification.signalType]
  · cases n with
    | resolveEscalation runId notes causedBy =>
      unfold Notification.signalPayload
      simp only
      split <;> simp
    | _ => simp [Notification.signalPayload]

theorem signal_records (n : Notification) (runId : String) (sequence : Nat) (offset next : Int) (now : String) :
    Records [n] (numberedFrom next (signalCommit runId n.request.actorSignal sequence offset now).events) where
  facts := by
    show [(signalEventType n.signalType, normalizeSignalPayload n.signalType n.signalPayload)] = _
    rw [normalized_payload]
    rfl
  traces := by
    intro e he
    rw [List.mem_singleton.mp he]
    exact .inl rfl

theorem eventType_mem (e : TraceEvent) : e.eventType ∈ traceEventTypes := by
  cases e <;> simp [TraceEvent.eventType, traceEventTypes]

theorem trace_records (e : TraceEvent) (runId : String) (stamp : Stamp) (next : Int) :
    Records [] (numberedFrom next (traceCommit runId e stamp).events) where
  facts := rfl
  traces := by
    intro event he
    rw [List.mem_singleton.mp he]
    exact .inr ⟨rfl, eventType_mem e⟩

/-! ### One call -/

section
variable {σ : Type} {K : Kernel σ}

/-- What a step does to the log of a run and to its instance, when it tells the run this. -/
structure Tells (runId : String) (ns : List Notification) (f f' : KernelFacade σ) : Prop where
  healthy : f'.Healthy
  named : f'.gateway.workflowIdPrefix = f.gateway.workflowIdPrefix
  told : ∀ a, f.gateway.workflows.get? runId = some a → runId ≠ "" →
    ∃ a' new, f'.gateway.workflows.get? runId = some a' ∧
      a'.seenSignalTokens = ns.foldl seenAfter a.seenSignalTokens ∧
      f'.eventsOf runId = f.eventsOf runId ++ new ∧ Records (accepted a.seenSignalTokens ns) new

variable {runId : String} {f f' f'' : KernelFacade σ}

theorem tells_refl (h : f.Healthy) (runId : String) : Tells runId [] f f where
  healthy := h
  named := rfl
  told := fun a ha _ => ⟨a, [], ha, rfl, (List.append_nil _).symm, records_nil⟩

theorem Tells.trans {ns ns' : List Notification} (h : Tells runId ns f f') (h' : Tells runId ns' f' f'') :
    Tells runId (ns ++ ns') f f'' where
  healthy := h'.healthy
  named := h'.named.trans h.named
  told := by
    intro a ha hne
    obtain ⟨a', new, ha', hseen, hevents, hrecords⟩ := h.told a ha hne
    obtain ⟨a'', new', ha'', hseen', hevents', hrecords'⟩ := h'.told a' ha' hne
    refine ⟨a'', new ++ new', ha'', ?_, ?_, ?_⟩
    · rw [hseen', hseen, List.foldl_append]
    · rw [hevents', hevents, List.append_assoc]
    · rw [hseen] at hrecords'
      rw [accepted_append]
      exact hrecords.append hrecords'

/-- What a signal of a run leaves. -/
structure Delivered (runId : String) (n : Notification) (w w' : World σ) : Prop where
  upToDate : w'.services.UpToDate
  runId_eq : w'.process.actor.runId = some runId
  elsewhere : ∀ r, r ≠ runId → w'.services.journal.eventsOf r = w.services.journal.eventsOf r
  seen : runId ≠ "" → w'.process.actor.seenSignalTokens = seenAfter w.process.actor.seenSignalTokens n
  gained : runId ≠ "" → ∃ new,
    w'.services.journal.eventsOf runId = w.services.journal.eventsOf runId ++ new ∧
      Records (accepted w.process.actor.seenSignalTokens [n]) new

/-- One that was not taken. -/
theorem delivered_unchanged {w w' : World σ} {n : Notification} (hrun : w.process.actor.runId = some runId)
    (h : Signalled w.services.journal w.process.actor w'.services w'.process)
    (hseen : runId ≠ "" → n.hasBeenSeen w.process.actor.seenSignalTokens = true) : Delivered runId n w w' where
  upToDate := h.upToDate
  runId_eq := h.runId_eq.trans hrun
  elsewhere := fun r _ => by rw [h.journal]
  seen := fun hne => by rw [h.seen, seenAfter, if_pos (hseen hne)]
  gained := by
    intro hne
    refine ⟨[], by rw [h.journal, List.append_nil], ?_⟩
    rw [accepted, if_pos (hseen hne)]
    exact records_nil

/-- One that was. -/
theorem delivered_recorded {w w' : World σ} {n : Notification} {sequence : Nat} {offset : Int} {now : String}
    (hrun : w.process.actor.runId = some runId)
    (h : Signalled (w.services.journal.append (signalCommit runId n.request.actorSignal sequence offset now))
      { w.process.actor with seenSignalTokens := n.token?.toList ++ w.process.actor.seenSignalTokens }
      w'.services w'.process)
    (hnew : ¬ n.hasBeenSeen w.process.actor.seenSignalTokens = true) : Delivered runId n w w' where
  upToDate := h.upToDate
  runId_eq := h.runId_eq.trans hrun
  elsewhere := by
    intro r hne
    rw [h.journal, Journal.eventsOf_append]
    exact if_neg hne
  seen := fun _ => by rw [h.seen, seenAfter, if_neg hnew]
  gained := by
    intro _
    refine ⟨numberedFrom (w.services.journal.lastOffset runId + 1)
      (signalCommit runId n.request.actorSignal sequence offset now).events, ?_, ?_⟩
    · rw [h.journal, Journal.eventsOf_append]
      exact if_pos rfl
    · rw [accepted, if_neg hnew]
      exact signal_records n runId sequence offset _ now

/-- **A signal is recorded if it is new to the instance, and changes no other run.** -/
theorem signal_delivered {w : World σ} (hdate : w.services.UpToDate) (hrun : w.process.actor.runId = some runId)
    (n : Notification) (now : String) :
    Delivered runId n w (attend K w (.signal n.request.actorSignal) (calms 6 now)) := by
  by_cases hempty : runId = ""
  · -- an instance without an id buffers its signals
    have hnone : w.process.actor.runId? = none := by
      unfold Actor.runId?
      rw [hrun]
      exact if_pos hempty
    have hbuffered : enter w.process (.signal n.request.actorSignal) = some
        { process := { w.process with actor := { w.process.actor with
            pendingSignals := w.process.actor.pendingSignals ++ [n.request.actorSignal] } }
          next := .end (.ok ()) } := by
      unfold enter
      simp only [hnone]
    apply delivered_unchanged hrun _ (fun hne => absurd hempty hne)
    exact Ends.attended hbuffered (.done ⟨rfl, hdate, rfl, rfl⟩)
  · have hsome : w.process.actor.runId? = some runId := by
      unfold Actor.runId?
      rw [hrun]
      exact if_neg hempty
    by_cases hseen : n.hasBeenSeen w.process.actor.seenSignalTokens = true
    · exact delivered_unchanged hrun (signal_suppressed hdate hsome rfl hseen now) (fun _ => hseen)
    · have hnew : w.process.actor.hasSeen n.request.actorSignal = false := Bool.not_eq_true _ ▸ hseen
      obtain ⟨offset, hkept⟩ := signal_recorded (K := K) hdate hsome rfl hnew now
      exact delivered_recorded hrun hkept hseen


/-! ### A call of the facade -/

/-- The instance of a run was kept after a call. -/
theorem healthy_keep (h : f.Healthy) {w : World σ} (hdate : w.services.UpToDate)
    (hrun : w.process.actor.runId = some runId) :
    ({ f with gateway := f.gateway.keep runId w } : KernelFacade σ).Healthy where
  upToDate := hdate
  named := by
    intro r a ha
    have hget : (f.gateway.workflows.set runId w.process.actor).get? r = some a := ha
    rw [Dict.get?_set] at hget
    split at hget
    · rename_i hr
      cases hget
      rw [hr]
      exact hrun
    · exact h.named r a hget

theorem tells_signal (h : f.Healthy) {n : Notification} {now : String} {g : LocalWorkflowGateway σ}
    (hsignal : f.gateway.signalWorkflow K n.runId n.request now = some g) (r : String) :
    Tells r ([n].filter (fun n => n.runId = r)) f { f with gateway := g } := by
  unfold LocalWorkflowGateway.signalWorkflow at hsignal
  cases hget : f.gateway.workflows.get? n.runId with
  | none =>
    rw [hget] at hsignal
    cases hsignal
  | some a =>
    rw [hget] at hsignal
    obtain rfl := Option.some.inj hsignal
    have hdelivered : Delivered n.runId n (f.gateway.bring a) _ :=
      signal_delivered (K := K) (w := f.gateway.bring a) h.upToDate (h.named n.runId a hget) n now
    generalize attend K (f.gateway.bring a) (.signal n.request.actorSignal) (calms 6 now) = w' at hdelivered
    refine ⟨healthy_keep h hdelivered.upToDate hdelivered.runId_eq, rfl, ?_⟩
    intro b hb hne
    show ∃ a' new, (f.gateway.workflows.set n.runId w'.process.actor).get? r = some a' ∧ _
    rw [Dict.get?_set]
    by_cases hr : r = n.runId
    · subst hr
      obtain rfl : a = b := Option.some.inj (hget.symm.trans hb)
      obtain ⟨new, hevents, hrecords⟩ := hdelivered.gained hne
      rw [if_pos rfl, List.filter_cons_of_pos (by simp), List.filter_nil]
      exact ⟨_, new, rfl, hdelivered.seen hne, hevents, hrecords⟩
    · have hother : ¬ n.runId = r := fun heq => hr heq.symm
      rw [if_neg hr, List.filter_cons_of_neg (by simpa using hother), List.filter_nil]
      refine ⟨b, [], hb, rfl, ?_, records_nil⟩
      rw [List.append_nil]
      exact hdelivered.elsewhere r hr

theorem tells_traceEvent (h : f.Healthy) (n : Notification) (stamp : Stamp) (r : String) :
    Tells r [] f (f.appendTraceEvent K n stamp) := by
  unfold KernelFacade.appendTraceEvent
  split
  · exact tells_refl h r
  · rename_i e hevent
    split
    · have hwritten := commit_written (K := K) (w := f.gateway.world) h.upToDate
        (show (traceCommit n.runId e stamp).events.isEmpty = false from rfl) stamp.now
      generalize attend K f.gateway.world (.write (traceCommit n.runId e stamp)) (calms 1 stamp.now) = w'
        at hwritten
      refine ⟨⟨hwritten.upToDate, h.named⟩, rfl, fun a ha hne => ?_⟩
      have hevents : w'.services.journal.eventsOf r = if r = n.runId then
          f.eventsOf r ++ numberedFrom (f.gateway.world.services.journal.lastOffset r + 1)
            (traceCommit n.runId e stamp).events
          else f.eventsOf r := by
        rw [hwritten.journal]
        exact Journal.eventsOf_append _ _ _
      by_cases hr : r = n.runId
      · rw [if_pos hr] at hevents
        exact ⟨a, _, ha, rfl, hevents, trace_records e n.runId stamp _⟩
      · rw [if_neg hr] at hevents
        refine ⟨a, [], ha, rfl, ?_, records_nil⟩
        rw [List.append_nil]
        exact hevents
    · exact tells_refl h r

theorem tells_notify (h : f.Healthy) {n : Notification} {stamp : Stamp}
    (hsuccess : (f.notify K n stamp).2 = true) (r : String) :
    Tells r ([n].filter (fun n => n.runId = r)) f (f.notify K n stamp).1 := by
  unfold KernelFacade.notify at hsuccess ⊢
  cases hsignal : f.gateway.signalWorkflow K n.runId n.request stamp.now with
  | none =>
    rw [hsignal] at hsuccess
    cases hsuccess
  | some g =>
    have htells := tells_signal h hsignal r
    have htrace := tells_traceEvent (K := K) htells.healthy n stamp r
    have hboth := htells.trans htrace
    rw [List.append_nil] at hboth
    exact hboth

theorem childInput_bare {request : SpawnChildRunRequest} {input : RunInput}
    (h : (Gateway.localFsm.childInput request).toOption = some input) :
    input.policyVersions = none ∧ input.pendingSignals = none := by
  unfold Gateway.childInput at h
  simp only at h
  split at h
  · cases h
  · obtain rfl := Option.some.inj h
    exact ⟨rfl, rfl⟩

/-- A child is started beside the runs that are there. -/
theorem tells_started (h : f.Healthy) {input : RunInput} (hversions : input.policyVersions = none)
    (hpending : input.pendingSignals = none) {now : String} {g : LocalWorkflowGateway σ}
    (hstart : f.gateway.startWorkflow K input now = some g) (r : String) :
    Tells r [] f { f with gateway := g } := by
  unfold LocalWorkflowGateway.startWorkflow at hstart
  cases hget : f.gateway.workflows.get? input.runId with
  | some a =>
    rw [hget] at hstart
    cases hstart
  | none =>
    rw [hget] at hstart
    obtain rfl := Option.some.inj hstart
    have hrun : Signalled (f.gateway.bring {}).services.journal { runId := some input.runId } _ _ :=
      run_started (K := K) (w := f.gateway.bring {}) h.upToDate rfl hversions hpending now
    generalize attend K (f.gateway.bring {}) (.run input) (calms 1 now) = w' at hrun
    refine ⟨healthy_keep h hrun.upToDate hrun.runId_eq, rfl, ?_⟩
    intro a ha hne
    have hr : r ≠ input.runId := by
      intro hr
      rw [hr, hget] at ha
      cases ha
    refine ⟨a, [], ?_, rfl, ?_, records_nil⟩
    · show (f.gateway.workflows.set input.runId w'.process.actor).get? r = some a
      rw [Dict.get?_set, if_neg hr]
      exact ha
    · rw [List.append_nil]
      exact congrArg (fun j => Journal.eventsOf j r) hrun.journal

/-- **A call that returns tells its run what it is about**, if that is new. -/
theorem tells_next (h : f.Healthy) {call : FacadeCall × Stamp} (hsuccess : f.Succeeds K call) (r : String) :
    Tells r (notificationsTo f.gateway r [call]) f (f.next K call) := by
  obtain ⟨c, stamp⟩ := call
  unfold KernelFacade.Succeeds KernelFacade.perform at hsuccess
  unfold KernelFacade.next KernelFacade.perform
  cases c with
  | spawnChildRun request =>
    simp only at hsuccess ⊢
    cases hstart : (Gateway.localFsm.childInput request).toOption.bind
        (f.gateway.startWorkflow K · stamp.now) with
    | none =>
      rw [hstart] at hsuccess
      cases hsuccess
    | some g =>
      rw [hstart] at hsuccess
      obtain ⟨input, hinput, hg⟩ := Option.bind_eq_some_iff.mp hstart
      obtain ⟨hversions, hpending⟩ := childInput_bare hinput
      have hstarted := tells_started h hversions hpending hg r
      exact hstarted.trans (tells_notify hstarted.healthy hsuccess r)
  | operate n tells =>
    simp only at hsuccess ⊢
    cases hperform : ((f.registry.touchRun n.runId).of n.runId).perform stamp.now n with
    | raised | dropped =>
      rw [hperform] at hsuccess
      cases hsuccess
    | goesOn record =>
      rw [hperform] at hsuccess
      have hregistry : Tells r [] f { f with registry := (f.registry.touchRun n.runId).update n.runId record } :=
        ⟨⟨h.upToDate, h.named⟩, rfl, fun a ha _ => ⟨a, [], ha, rfl, (List.append_nil _).symm, records_nil⟩⟩
      exact hregistry.trans (tells_notify hregistry.healthy hsuccess r)

theorem notification_same {g g' : LocalWorkflowGateway σ} (h : g'.workflowIdPrefix = g.workflowIdPrefix)
    (c : FacadeCall) : c.notification g' = c.notification g := by
  cases c with
  | spawnChildRun request =>
    simp only [FacadeCall.notification, spawnedChild, LocalWorkflowGateway.workflowIdFor, h]
  | operate n tells => rfl

theorem notificationsTo_cons (g : LocalWorkflowGateway σ) (r : String) (call : FacadeCall × Stamp)
    (rest : List (FacadeCall × Stamp)) :
    notificationsTo g r (call :: rest) = notificationsTo g r [call] ++ notificationsTo g r rest := by
  unfold notificationsTo
  rw [← List.filter_append]
  rfl

/-- **Calls that return tell a run what they are about**, each if it is new. -/
theorem tells_run (h : f.Healthy) {calls : List (FacadeCall × Stamp)}
    (hsuccess : Along (KernelFacade.next K) (KernelFacade.Succeeds K) f calls) (r : String) :
    Tells r (notificationsTo f.gateway r calls) f (run (KernelFacade.next K) f calls) := by
  induction calls generalizing f with
  | nil => exact tells_refl h r
  | cons call rest ih =>
    have hstep := tells_next h hsuccess.1 r
    have hrest := ih hstep.healthy hsuccess.2
    have hsame : notificationsTo (f.next K call).gateway r rest = notificationsTo f.gateway r rest := by
      unfold notificationsTo
      simp only [notification_same hstep.named]
    rw [hsame] at hrest
    rw [notificationsTo_cons]
    exact hstep.trans hrest

end

/-! ### Children -/

/-- The types that calls of the facade leave in the log. -/
def toldEventTypes : List String :=
  traceEventTypes ++
    ["signal.child_spawned", "signal.stage_opened", "signal.stage_state_updated", "signal.branch_opened",
     "signal.branch_state_updated", "signal.human_gate_opened", "run.recovery_succeeded"]

/-- None of them ends a run or completes a child. -/
theorem toldEventTypes_harmless : ∀ t ∈ toldEventTypes,
    t ≠ "run.cancel_requested" ∧ t ≠ "reconcile.failed" ∧ t ∉ childCompletionTypes ∧
    (staticEventTransitions.lookup t).all
      (fun l => l.lifecycleState ∉ [RunLifecycleState.aborted, .completed]) = true ∧
    (resolveDynamicTransition t).all
      (fun l => l.lifecycleState ∉ [RunLifecycleState.aborted, .completed]) = true := by
  decide

theorem apply_stays_open {p : RunProjection} {e : RuntimeEvent} (hopen : ¬ Terminal p)
    (htype : e.eventType ∈ toldEventTypes) : ¬ Terminal (applyProjectionEvent p e) := by
  obtain ⟨hcancel, hreconcile, _, hstatic, hdynamic⟩ := toldEventTypes_harmless e.eventType htype
  have hunchanged : (projectionUnchangedState p).1.lifecycleState ∉ [RunLifecycleState.aborted, .completed] :=
    hopen
  show (resolveProjectionTransition p e).1.lifecycleState ∉ [RunLifecycleState.aborted, .completed]
  unfold resolveProjectionTransition
  rw [if_neg hcancel, if_neg hreconcile]
  split
  · exact hunchanged
  · cases hlookup : staticEventTransitions.lookup e.eventType with
    | some l =>
      rw [hlookup] at hstatic
      exact of_decide_eq_true hstatic
    | none =>
      cases hresolved : resolveDynamicTransition e.eventType with
      | some l =>
        rw [hresolved] at hdynamic
        exact of_decide_eq_true hdynamic
      | none => exact hunchanged

/-- After such events a child is listed if it was, or if one of them is about it. -/
theorem mem_active_told {p : RunProjection} (hopen : ¬ Terminal p) {events : List RuntimeEvent}
    (htypes : ∀ e ∈ events, e.eventType ∈ toldEventTypes) {child : String} (hchild : child ≠ "") :
    child ∈ (run applyProjectionEvent p events).activeChildRuns ↔
      child ∈ p.activeChildRuns ∨ ∃ e ∈ events, About child e := by
  induction events generalizing p with
  | nil => simp
  | cons e rest ih =>
    have htype := htypes e List.mem_cons_self
    have hrest := ih (apply_stays_open hopen htype) (fun e' he' => htypes e' (List.mem_cons_of_mem e he'))
    have hactive : (applyProjectionEvent p e).activeChildRuns = resolveActiveChildRuns p e := rfl
    rw [run_cons, hrest, hactive, List.exists_mem_cons_iff]
    by_cases habout : About child e
    · have hspawn : e.eventType ∈ childSpawnTypes := by
        rcases List.mem_append.mp habout.2 with hs | hc
        · exact hs
        · exact absurd hc (toldEventTypes_harmless _ htype).2.2.1
      rw [mem_resolve_of_about hopen hchild habout]
      simp [hspawn, habout]
    · rw [mem_resolve_of_not_about habout]
      simp [habout]

section
variable {σ : Type} {K : Kernel σ} {f : KernelFacade σ} {runId : String}

theorem spawnedChild_ne_empty (g : LocalWorkflowGateway σ) (request : SpawnChildRunRequest) :
    spawnedChild g request ≠ "" := by
  unfold spawnedChild
  simp only
  split
  · intro hempty
    have hlist := congrArg String.toList hempty
    unfold LocalWorkflowGateway.workflowIdFor at hlist
    simp at hlist
  · rename_i hne
    exact hne

/-- What the calls tell a run is one of these. -/
theorem mem_notificationsTo {n : Notification} {g : LocalWorkflowGateway σ}
    {calls : List (FacadeCall × Stamp)} (h : n ∈ notificationsTo g runId calls) :
    n.runId = runId ∧ ((∃ child, n = .spawnChildRun runId child ∧ child ≠ "") ∨ n.tells = true) := by
  unfold notificationsTo at h
  obtain ⟨hmem, hrun⟩ := List.mem_filter.mp h
  have hrun : n.runId = runId := of_decide_eq_true hrun
  obtain ⟨call, _, rfl⟩ := List.mem_map.mp hmem
  refine ⟨hrun, ?_⟩
  cases hcall : call.1 with
  | spawnChildRun request =>
    rw [hcall] at hrun
    refine .inl ⟨spawnedChild g request, ?_, spawnedChild_ne_empty g request⟩
    have hparent : request.parentRunId = runId := hrun
    rw [← hparent]
    rfl
  | operate n tells => exact .inr tells

def toldSignalTypes : List String :=
  ["child_spawned", "stage_opened", "stage_state_updated", "branch_opened", "branch_state_updated",
   "human_gate_opened", "recovery_succeeded"]

theorem signalEventType_told : ∀ t ∈ toldSignalTypes,
    signalEventType t ∈ toldEventTypes ∧
      (signalEventType t ∈ childEventTypes → t = "child_spawned") := by
  decide

theorem traceEventTypes_childless : ∀ t ∈ traceEventTypes, t ∉ childEventTypes := by decide

theorem signalType_told {n : Notification} {g : LocalWorkflowGateway σ} {calls : List (FacadeCall × Stamp)}
    (h : n ∈ notificationsTo g runId calls) : n.signalType ∈ toldSignalTypes := by
  obtain ⟨_, ⟨child, rfl, _⟩ | htells⟩ := mem_notificationsTo h
  · simp [Notification.signalType, toldSignalTypes]
  · cases n with
    | spawnChildRun | submitApproval | escalateRecovery | heartbeatTimeout => cases htells
    | openStage | markStageState | openBranch | markBranchState | openHumanGate | resolveEscalation =>
      simp [Notification.signalType, toldSignalTypes]

/-- Only the signal of a spawn is about a child. -/
theorem about_iff_spawned {ns : List Notification} {events : List RuntimeEvent} (h : Records ns events)
    (hrun : ∀ n ∈ ns, n.runId = runId) (htypes : ∀ n ∈ ns, n.signalType ∈ toldSignalTypes) (child : String) :
    (∃ e ∈ events, About child e) ↔ Notification.spawnChildRun runId child ∈ ns := by
  constructor
  · intro ⟨e, he, htext, htype⟩
    have hfact : e.eventAuthority = .authoritativeFact := by
      rcases h.traces e he with hfact | ⟨_, htrace⟩
      · exact hfact
      · exact absurd htype (traceEventTypes_childless _ htrace)
    have hmem : (e.eventType, e.payloadJson) ∈ factsOf events :=
      List.mem_map.mpr ⟨e, List.mem_filter.mpr ⟨he, decide_eq_true hfact⟩, rfl⟩
    rw [h.facts] at hmem
    obtain ⟨n, hn, hrecord⟩ := List.mem_map.mp hmem
    obtain ⟨hsignal, hpayload⟩ := Prod.mk.inj hrecord
    have hspawn := (signalEventType_told n.signalType (htypes n hn)).2 (hsignal ▸ htype)
    cases n with
    | spawnChildRun parent child' =>
      have hparent : parent = runId := hrun _ hn
      have hchild : child' = child := by
        unfold payloadText at htext
        rw [← hpayload] at htext
        exact Option.some.inj htext
      rwa [hparent, hchild] at hn
    | _ => simp [Notification.signalType] at hspawn
  · intro hn
    have hmem : (Notification.spawnChildRun runId child).record ∈ factsOf events := by
      rw [h.facts]
      exact List.mem_map_of_mem hn
    obtain ⟨e, he, hrecord⟩ := List.mem_map.mp hmem
    obtain ⟨htype, hpayload⟩ := Prod.mk.inj hrecord
    refine ⟨e, (List.mem_filter.mp he).1, ?_, ?_⟩
    · unfold payloadText
      rw [hpayload]
      rfl
    · rw [htype]
      have hspawn : signalEventType "child_spawned" ∈ childEventTypes := by decide
      exact hspawn

/-! ### Histories of calls -/

/-- **When notifications reach the log.** The log of a run gains one fact for each call
about it that returned, with the type and the payload of the call's signal, exactly
when the tokens of the calls are distinct and unseen; and of the children spawned while the run
is open, those are listed that were before or whose spawn was taken. -/
theorem notifications_recorded_iff (K : Kernel σ) (h : f.Healthy) {a : Actor}
    (hrun : f.gateway.workflows.get? runId = some a) (hstarted : runId ≠ "")
    {calls : List (FacadeCall × Stamp)}
    (hsuccess : Along (KernelFacade.next K) (KernelFacade.Succeeds K) f calls) :
    let f' := run (KernelFacade.next K) f calls
    let ns := notificationsTo f.gateway runId calls
    ((∃ new, f'.eventsOf runId = f.eventsOf runId ++ new ∧ factsOf new = ns.map Notification.record) ↔
      Fresh a.seenSignalTokens ns) ∧
    (¬ Terminal (f.projectionOf runId) → ∀ child, Notification.spawnChildRun runId child ∈ ns →
      (child ∈ (f'.projectionOf runId).activeChildRuns ↔
        child ∈ (f.projectionOf runId).activeChildRuns ∨
          Notification.spawnChildRun runId child ∈ accepted a.seenSignalTokens ns)) := by
  intro f' ns
  obtain ⟨a', new, _, _, hevents, hrecords⟩ := (tells_run h hsuccess runId).told a hrun hstarted
  have hsublist : (accepted a.seenSignalTokens ns).Sublist ns := accepted_sublist _ _
  constructor
  · rw [← accepted_all_iff]
    constructor
    · intro ⟨new', hevents', hfacts⟩
      have hnew : new' = new := List.append_cancel_left (hevents'.symm.trans hevents)
      rw [hnew, hrecords.facts] at hfacts
      have hlength := congrArg List.length hfacts
      rw [List.length_map, List.length_map] at hlength
      exact hsublist.eq_of_length hlength
    · intro hall
      refine ⟨new, hevents, ?_⟩
      rw [hrecords.facts]
      exact congrArg (List.map Notification.record) hall
  · intro hopen child hspawned
    have hchild : child ≠ "" := by
      obtain ⟨_, ⟨child', heq, hne⟩ | htells⟩ := mem_notificationsTo hspawned
      · obtain rfl : child = child' := by
          cases heq
          rfl
        exact hne
      · cases htells
    have htypes : ∀ e ∈ new, e.eventType ∈ toldEventTypes := by
      intro e he
      rcases hrecords.traces e he with hfact | ⟨_, htrace⟩
      · have hmem : (e.eventType, e.payloadJson) ∈ factsOf new :=
          List.mem_map.mpr ⟨e, List.mem_filter.mpr ⟨he, decide_eq_true hfact⟩, rfl⟩
        rw [hrecords.facts] at hmem
        obtain ⟨n, hn, hrecord⟩ := List.mem_map.mp hmem
        rw [← (Prod.mk.inj hrecord).1]
        exact (signalEventType_told _ (signalType_told (hsublist.subset hn))).1
      · exact List.mem_append_left _ htrace
    have hkept : new.filter (fun e => e.eventAuthority ≠ .derivedDiagnostic) = new := by
      refine List.filter_eq_self.mpr (fun e he => ?_)
      rcases hrecords.traces e he with hfact | ⟨hreplayable, _⟩
      · rw [hfact]
        rfl
      · rw [hreplayable]
        rfl
    have hfold : f'.projectionOf runId = run applyProjectionEvent (f.projectionOf runId) new := by
      show foldProjection runId ((f'.eventsOf runId).filter _) = _
      rw [hevents, List.filter_append, hkept, foldProjection_append]
      rfl
    rw [hfold, mem_active_told hopen htypes hchild,
      about_iff_spawned hrecords (fun n hn => (mem_notificationsTo (hsublist.subset hn)).1)
        (fun n hn => signalType_told (hsublist.subset hn))]

end

namespace Sample

/-- A facade over a gateway with one run, and an empty log. -/
def facade : KernelFacade Dedupe.InMemoryDedupeStore :=
  { gateway :=
      { workflows := Dict.empty.set "run" { runId := some "run" }
        world := World.fresh Journal.empty Dict.empty } }

theorem facade_healthy : facade.Healthy where
  upToDate := (current_fresh Journal.empty Dict.empty).services
  named := by
    intro runId a ha
    have hget : (Dict.empty.set "run" ({ runId := some "run" } : Actor)).get? runId = some a := ha
    rw [Dict.get?_set] at hget
    split at hget
    · rename_i hrun
      cases hget
      rw [hrun]
    · cases hget

def openRoute : FacadeCall × Stamp := (.operate (.openStage "route" "run" none) rfl, {})

def openCapture : FacadeCall × Stamp := (.operate (.openStage "capture" "run" none) rfl, {})

def spawn (childKind : String) : FacadeCall × Stamp :=
  (.spawnChildRun { parentRunId := "run", childKind := childKind, inheritPolicyVersions := false }, {})

end Sample

/-- A stage and a child reach the log. -/
theorem first_notifications_recorded :
    let calls := [Sample.openRoute, Sample.spawn "child"]
    let f' := run (KernelFacade.next Workflow.Sample.kernel) Sample.facade calls
    (∃ new, f'.eventsOf "run" = Sample.facade.eventsOf "run" ++ new ∧
      factsOf new = (notificationsTo Sample.facade.gateway "run" calls).map Notification.record) ∧
    "run:child" ∈ (f'.projectionOf "run").activeChildRuns := by
  intro calls f'
  have hsuccess : Along (KernelFacade.next Workflow.Sample.kernel)
      (KernelFacade.Succeeds Workflow.Sample.kernel) Sample.facade calls := ⟨rfl, rfl, trivial⟩
  have hrun : Sample.facade.gateway.workflows.get? "run" = some { runId := some "run" } := rfl
  have hopen : ¬ Terminal (Sample.facade.projectionOf "run") := by decide
  obtain ⟨hlog, hchildren⟩ := notifications_recorded_iff Workflow.Sample.kernel Sample.facade_healthy hrun
    (by decide) hsuccess
  refine ⟨hlog.mpr ⟨by decide, by decide⟩, ?_⟩
  apply (hchildren hopen "run:child" ?_).mpr
  · right
    exact List.mem_cons_of_mem _ List.mem_cons_self
  · exact List.mem_cons_of_mem _ List.mem_cons_self

/-- The second stage and the second child do not. -/
theorem repeated_notifications_lost :
    let stages := run (KernelFacade.next Workflow.Sample.kernel) Sample.facade
      [Sample.openRoute, Sample.openCapture]
    let children := run (KernelFacade.next Workflow.Sample.kernel) Sample.facade
      [Sample.spawn "first", Sample.spawn "second"]
    (factsOf (stages.eventsOf "run")).length = 1 ∧
      Along (KernelFacade.next Workflow.Sample.kernel) (KernelFacade.Succeeds Workflow.Sample.kernel)
        Sample.facade [Sample.openRoute, Sample.openCapture] ∧
      (children.projectionOf "run").activeChildRuns = ["run:first"] ∧
      Along (KernelFacade.next Workflow.Sample.kernel) (KernelFacade.Succeeds Workflow.Sample.kernel)
        Sample.facade [Sample.spawn "first", Sample.spawn "second"] :=
  ⟨rfl, ⟨rfl, rfl, trivial⟩, rfl, ⟨rfl, rfl, trivial⟩⟩

end AgentKernel.Facade
