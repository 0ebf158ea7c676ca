import AgentKernel.Events.Journal
import AgentKernel.Facade.TraceEvents

/-! The state of a trace over facades that share a log.

Each facade performs operations on its own registries, adds them to the log, and reads what
the others added when it is queried. What a record of a run and the history of the run have
to do with each other is `InStep`, kept by every operation and every query of any facade.
A query of any facade, also of a new one, then tells the last state of every stage and branch and
the outcome of the review exactly when no entry was opened again after it was marked and no
rejection decides the review (`trace_state_told_iff`): the replay adds nothing to an entry that
is there, and the log does not bring back how a gate was resolved. -/
namespace AgentKernel.Facade
open Lib Events Replica

/-! ### Queries -/

inductive TraceReviewState where
  | notRequired
  | requested
  | inReview
  | approved
  | rejected
  deriving DecidableEq, Repr

/-- What a query shows of the registries; the other fields come from the projection. -/
structure TraceRuntimeView where
  reviewState : TraceReviewState
  branches : List TraceBranchView
  stages : List TraceStageView

namespace RunRecord

def reviewState (record : RunRecord) : TraceReviewState :=
  if record.openHumanGates = [] then .notRequired
  else if ∃ g ∈ record.openHumanGates, g ∉ record.resolvedHumanGates then .requested
  else if ∃ g ∈ record.resolvedHumanGates, record.gateResolutions.get? g = some .rejected then .rejected
  else .approved

def view (record : RunRecord) : TraceRuntimeView :=
  { reviewState := record.reviewState
    branches := record.branches.values
    stages := record.stages.values }

end RunRecord

/-! ### Facades over one log -/

/-- The log, the registries of every facade, and what was done. -/
structure TraceWorld where
  journal : Journal
  facades : Nat → Registry
  performed : List (Notification × String)

/-- A commit with the events of somebody else. -/
def Untraced (commit : ActionCommit) : Prop :=
  ∀ event ∈ commit.events, Text.startsWith event.eventType "trace." = false

inductive TraceLabel where
  | operate (facade : Nat) (n : Notification) (stamp : Stamp)
  | query (facade : Nat) (runId : String)
  | append (commit : ActionCommit) (untraced : Untraced commit)

namespace TraceWorld

/-- New facades, with bounds on the runs they track, over an empty log. -/
def opened (bounds : Nat → Nat) : TraceWorld where
  journal := Journal.empty
  facades := fun i => { maxTrackedRuns := bounds i }
  performed := []

def withFacade (w : TraceWorld) (i : Nat) (r : Registry) : TraceWorld :=
  { w with facades := Function.update w.facades i r }

/-- A call of an operation; one that raises or drops a duplicate only tracks its run. -/
def operate (w : TraceWorld) (i : Nat) (n : Notification) (stamp : Stamp) : TraceWorld :=
  let r := if n.touches then (w.facades i).touchRun n.runId else w.facades i
  match (r.of n.runId).perform stamp.now n with
  | .raised | .dropped => w.withFacade i r
  | .goesOn record =>
    { journal := (n.traceEvent stamp.now).elim w.journal
        (fun e => w.journal.append (traceCommit n.runId e stamp))
      facades := Function.update w.facades i (r.update n.runId record)
      performed := w.performed ++ [(n, stamp.now)] }

/-- The record a query reads the log into. -/
def queried (w : TraceWorld) (i : Nat) (runId : String) : RunRecord :=
  let record := (w.facades i).of runId
  record.rebuild (w.journal.load runId record.rebuildOffset)

/-- `query_trace_runtime`. -/
def query (w : TraceWorld) (i : Nat) (runId : String) : TraceWorld × TraceRuntimeView :=
  (w.withFacade i ((w.facades i).update runId (w.queried i runId)), (w.queried i runId).view)

def next (w : TraceWorld) : TraceLabel → TraceWorld
  | .operate i n stamp => w.operate i n stamp
  | .query i runId => (w.query i runId).1
  | .append commit _ => { w with journal := w.journal.append commit }

/-- The operations on the trace of a run, in order. -/
def history (w : TraceWorld) (runId : String) : List TraceEvent :=
  w.performed.filterMap (fun p => if p.1.runId = runId then p.1.traceEvent p.2 else none)

end TraceWorld

/-! ### What is to be told -/

/-- The outcome the operations give the review. -/
def reviewOf (history : List TraceEvent) : TraceReviewState :=
  if history.filterMap TraceEvent.namesGate? = [] then .notRequired
  else if ∃ g ∈ history.filterMap TraceEvent.namesGate?,
      g ∉ history.filterMap TraceEvent.resolvesGate? then .requested
  else if history.filterMap TraceEvent.rejectsGate? ≠ [] then .rejected
  else .approved

/-- The view tells the last state of every stage and branch, and the outcome of the review. -/
structure Told (history : List TraceEvent) (view : TraceRuntimeView) : Prop where
  stages : ∀ id, (view.stages.find? (fun s => s.stageId = id)).map TraceStageView.state =
    lastState .active (history.filterMap (TraceEvent.stageTouch id))
  branches : ∀ id, (view.branches.find? (fun b => b.branchId = id)).map TraceBranchView.state =
    lastState .active (history.filterMap (TraceEvent.branchTouch id))
  review : view.reviewState = reviewOf history

/-- No entry was opened again after it was marked with another state than active, and
where a gate was rejected another one is pending. -/
structure Plain (history : List TraceEvent) : Prop where
  stages : ∀ id, Unhidden .active (history.filterMap (TraceEvent.stageTouch id))
  branches : ∀ id, Unhidden .active (history.filterMap (TraceEvent.branchTouch id))
  review : history.filterMap TraceEvent.rejectsGate? ≠ [] →
    ∃ g ∈ history.filterMap TraceEvent.namesGate?, g ∉ history.filterMap TraceEvent.resolvesGate?

/-! ### A record and the history -/

/-- Nothing is marked before it is opened. -/
structure Begun (history : List TraceEvent) : Prop where
  stages : ∀ id, Started (history.filterMap (TraceEvent.stageTouch id))
  branches : ∀ id, Started (history.filterMap (TraceEvent.branchTouch id))

/-- A record, what it has read of the history, and what it has not. -/
structure InStep (record : RunRecord) (seen unseen : List TraceEvent) : Prop where
  named : record.Named
  stages : ∀ id, Synced .active (seen.filterMap (TraceEvent.stageTouch id))
    (unseen.filterMap (TraceEvent.stageTouch id)) (record.stageState id)
  branches : ∀ id, Synced .active (seen.filterMap (TraceEvent.branchTouch id))
    (unseen.filterMap (TraceEvent.branchTouch id)) (record.branchState id)
  opened : Grown TraceEvent.namesGate? seen unseen (fun g => g ∈ record.openHumanGates)
  resolved : Grown TraceEvent.resolvesGate? seen unseen (fun g => g ∈ record.resolvedHumanGates)
  rejected : ∀ g, record.gateResolutions.get? g = some .rejected →
    ∃ e ∈ seen ++ unseen, e.rejectsGate? = some g

section
variable {record record' : RunRecord} {seen unseen : List TraceEvent}

theorem InStep.begun (h : InStep record seen unseen) : Begun (seen ++ unseen) where
  stages := by
    intro id
    rw [List.filterMap_append]
    exact (h.stages id).started
  branches := by
    intro id
    rw [List.filterMap_append]
    exact (h.branches id).started

/-- An empty record has read nothing. -/
theorem inStep_empty (h : Begun unseen) : InStep {} [] unseen where
  named := RunRecord.named_empty
  stages := fun id => synced_none (h.stages id)
  branches := fun id => synced_none (h.branches id)
  opened := grown_none unseen (fun _ => List.not_mem_nil)
  resolved := grown_none unseen (fun _ => List.not_mem_nil)
  rejected := by
    intro g hg
    cases hg

/-- Another facade's operation. -/
theorem InStep.append (h : InStep record seen unseen) {e : TraceEvent}
    (hbegun : Begun (seen ++ (unseen ++ [e]))) : InStep record seen (unseen ++ [e]) where
  named := h.named
  stages := fun id => synced_extend (h.stages id) (hbegun.stages id) (fun _ _ => .inl rfl) (fun _ => rfl)
  branches := fun id =>
    synced_extend (h.branches id) (hbegun.branches id) (fun _ _ => .inl rfl) (fun _ => rfl)
  opened := h.opened.append e (fun _ hg => hg) (fun _ hg => .inl hg)
  resolved := h.resolved.append e (fun _ hg => hg) (fun _ hg => .inl hg)
  rejected := by
    intro g hg
    obtain ⟨e', he', hrejects⟩ := h.rejected g hg
    refine ⟨e', ?_, hrejects⟩
    rw [← List.append_assoc]
    exact List.mem_append_left _ he'

/-- What an operation adds to the history is marked only after it was opened. -/
theorem InStep.perform_begun (h : InStep record seen unseen) {n : Notification} {now : String}
    {e : TraceEvent} (hperform : record.perform now n = .goesOn record')
    (hevent : n.traceEvent now = some e) : Begun (seen ++ unseen ++ [e]) := by
  constructor
  · intro id
    obtain ⟨htouched, _⟩ := RunRecord.perform_stage hperform hevent id
    refine started_extend (h.begun.stages id) e (fun t htouch hmark => ?_)
    rw [List.filterMap_append]
    exact (h.stages id).known ((htouched t htouch).2 hmark)
  · intro id
    obtain ⟨htouched, _⟩ := RunRecord.perform_branch hperform hevent id
    refine started_extend (h.begun.branches id) e (fun t htouch hmark => ?_)
    rw [List.filterMap_append]
    exact (h.branches id).known ((htouched t htouch).2 hmark)

/-- The facade's own operation. -/
theorem InStep.perform (h : InStep record seen unseen) {n : Notification} {now : String} {e : TraceEvent}
    (hperform : record.perform now n = .goesOn record') (hevent : n.traceEvent now = some e) :
    InStep record' seen (unseen ++ [e]) := by
  have hbegun := h.perform_begun hperform hevent
  rw [List.append_assoc] at hbegun
  have hgates := RunRecord.perform_gates hperform hevent
  refine ⟨h.named.perform hperform, ?_, ?_, ?_, ?_, ?_⟩
  · intro id
    obtain ⟨htouched, hother⟩ := RunRecord.perform_stage hperform hevent id
    exact synced_extend (h.stages id) (hbegun.stages id) (fun t ht => .inr (htouched t ht).1) hother
  · intro id
    obtain ⟨htouched, hother⟩ := RunRecord.perform_branch hperform hevent id
    exact synced_extend (h.branches id) (hbegun.branches id) (fun t ht => .inr (htouched t ht).1) hother
  · exact h.opened.append e hgates.opened hgates.openedBy
  · exact h.resolved.append e hgates.resolved hgates.resolvedBy
  · intro g hg
    rcases hgates.rejectedBy g hg with hg | hrejects
    · obtain ⟨e', he', hrejects⟩ := h.rejected g hg
      refine ⟨e', ?_, hrejects⟩
      rw [← List.append_assoc]
      exact List.mem_append_left _ he'
    · exact ⟨e, by simp, hrejects⟩

theorem stageState_run (record : RunRecord) {events : List TraceEvent} (h : ∀ e ∈ events, e.OpensActive)
    (id : String) : (run RunRecord.apply record events).stageState id =
      run (absorb .active) (record.stageState id) (events.filterMap (TraceEvent.stageTouch id)) :=
  entry_run (fun r => r.stageState id) (fun r _ he => RunRecord.apply_stage r he id) record events h

theorem branchState_run (record : RunRecord) {events : List TraceEvent} (h : ∀ e ∈ events, e.OpensActive)
    (id : String) : (run RunRecord.apply record events).branchState id =
      run (absorb .active) (record.branchState id) (events.filterMap (TraceEvent.branchTouch id)) :=
  entry_run (fun r => r.branchState id) (fun r _ he => RunRecord.apply_branch r he id) record events h

theorem gateResolutions_run (record : RunRecord) (events : List TraceEvent) :
    (run RunRecord.apply record events).gateResolutions = record.gateResolutions := by
  induction events generalizing record with
  | nil => rfl
  | cons e rest ih => rw [run_cons, ih, RunRecord.apply_gateResolutions]

/-- Reading the rest of the history. -/
theorem InStep.read (h : InStep record seen unseen) (hactive : ∀ e ∈ unseen, e.OpensActive) :
    InStep (run RunRecord.apply record unseen) (seen ++ unseen) [] where
  named := run_invariant (fun _ e hnamed => hnamed.apply e) h.named unseen
  stages := by
    intro id
    rw [stageState_run record hactive, List.filterMap_append]
    exact (h.stages id).read
  branches := by
    intro id
    rw [branchState_run record hactive, List.filterMap_append]
    exact (h.branches id).read
  opened := h.opened.reading
    (held_run (fun r g => g ∈ r.openHumanGates) RunRecord.mem_apply_openHumanGates record unseen)
  resolved := h.resolved.reading
    (held_run (fun r g => g ∈ r.resolvedHumanGates) RunRecord.mem_apply_resolvedHumanGates record unseen)
  rejected := by
    intro g hg
    rw [gateResolutions_run] at hg
    rw [List.append_nil]
    exact h.rejected g hg

end

/-! ### What is unread -/

/-- The trace events of a run that follow an offset. -/
def unread (j : Journal) (runId : String) (offset : Int) : List TraceEvent :=
  (j.load runId offset).filterMap readTraceEvent

theorem read_untraced {events : List RuntimeEvent}
    (h : ∀ event ∈ events, Text.startsWith event.eventType "trace." = false) (next : Int) :
    (numberedFrom next events).filterMap readTraceEvent = [] := by
  induction events generalizing next with
  | nil => rfl
  | cons event rest ih =>
    have hevent : readTraceEvent { event with commitOffset := next } = none :=
      readTraceEvent_none (h event List.mem_cons_self)
    rw [numberedFrom, List.filterMap_cons_none hevent]
    exact ih (fun e he => h e (List.mem_cons_of_mem _ he)) _

theorem unread_append_untraced {j : Journal} {runId : String} {offset : Int} {commit : ActionCommit}
    (h : offset ≤ j.lastOffset runId) (huntraced : Untraced commit) :
    unread (j.append commit) runId offset = unread j runId offset := by
  unfold unread
  rw [Journal.load_append h]
  split
  · rw [List.filterMap_append, read_untraced huntraced, List.append_nil]
  · rfl

theorem unread_append_trace {j : Journal} {runId : String} {offset : Int}
    (h : offset ≤ j.lastOffset runId) (runId' : String) (e : TraceEvent) (stamp : Stamp) :
    unread (j.append (traceCommit runId' e stamp)) runId offset =
      if runId = runId' then unread j runId offset ++ [e] else unread j runId offset := by
  unfold unread
  rw [Journal.load_append h]
  show List.filterMap readTraceEvent (if runId = runId' then _ else _) = _
  split
  · have hread := read_traceCommit runId' e stamp (j.lastOffset runId + 1)
    have hone : readTraceEvent { (traceCommit runId' e stamp).events.head (List.cons_ne_nil _ _) with
        commitOffset := j.lastOffset runId + 1 } = some e := (List.cons.inj hread).1
    rw [List.filterMap_append]
    congr 1
    exact List.filterMap_cons_some hone
  · rfl

/-- What is no trace event is not read anyway. -/
theorem filterMap_trace (events : List RuntimeEvent) :
    (events.filter (fun event => Text.startsWith event.eventType "trace.")).filterMap readTraceEvent =
      events.filterMap readTraceEvent := by
  induction events with
  | nil => rfl
  | cons event rest ih =>
    cases htrace : Text.startsWith event.eventType "trace." with
    | true =>
      simp only [List.filter_cons, htrace, if_true, List.filterMap_cons, ih]
    | false =>
      simp only [List.filter_cons, htrace, Bool.false_eq_true, if_false, ih,
        List.filterMap_cons_none (readTraceEvent_none htrace)]

/-- **After reading nothing is unread.** -/
theorem unread_rebuild (j : Journal) (runId : String) (record : RunRecord) :
    unread j runId (record.rebuild (j.load runId record.rebuildOffset)).rebuildOffset = [] := by
  unfold unread
  refine List.filterMap_eq_nil_iff.mpr (fun event hevent => ?_)
  obtain ⟨hmem, hlater⟩ := List.mem_filter.mp hevent
  cases htrace : Text.startsWith event.eventType "trace." with
  | false => exact readTraceEvent_none htrace
  | true =>
    obtain ⟨hreached, hread⟩ := le_foldl_max ((j.load runId record.rebuildOffset).filter
      (fun event => Text.startsWith event.eventType "trace.")) record.rebuildOffset
    have hlater : (record.rebuild (j.load runId record.rebuildOffset)).rebuildOffset < event.commitOffset :=
      of_decide_eq_true hlater
    have hload : event ∈ j.load runId record.rebuildOffset :=
      List.mem_filter.mpr ⟨hmem, decide_eq_true (Int.lt_of_le_of_lt hreached hlater)⟩
    have hle := hread event (List.mem_filter.mpr ⟨hload, htrace⟩)
    exact absurd hle (Int.not_le.mpr hlater)

/-! ### One facade and one run -/

/-- A record in step with the history of its run. -/
structure Follows (j : Journal) (history : List TraceEvent) (runId : String) (record : RunRecord) :
    Prop where
  behind : record.rebuildOffset ≤ j.lastOffset runId
  inStep : ∃ seen, history = seen ++ unread j runId record.rebuildOffset ∧
    InStep record seen (unread j runId record.rebuildOffset)

section
variable {j : Journal} {history : List TraceEvent} {runId : String} {record record' : RunRecord}

theorem Follows.begun (h : Follows j history runId record) : Begun history := by
  obtain ⟨seen, hhistory, hstep⟩ := h.inStep
  rw [hhistory]
  exact hstep.begun

/-- A run that is purged is read again from the start. -/
theorem Follows.purge (h : Follows j history runId record) (hrecorded : unread j runId 0 = history) :
    Follows j history runId {} where
  behind := j.lastOffset_nonneg runId
  inStep := by
    refine ⟨[], hrecorded.symm, inStep_empty ?_⟩
    show Begun (unread j runId 0)
    rw [hrecorded]
    exact h.begun

theorem Follows.append_untraced (h : Follows j history runId record) {commit : ActionCommit}
    (huntraced : Untraced commit) : Follows (j.append commit) history runId record where
  behind := Int.le_trans h.behind (j.lastOffset_le_append commit runId)
  inStep := by
    rw [unread_append_untraced h.behind huntraced]
    exact h.inStep

/-- An event of another run. -/
theorem Follows.append_other (h : Follows j history runId record) {runId' : String} (hne : runId ≠ runId')
    (e : TraceEvent) (stamp : Stamp) :
    Follows (j.append (traceCommit runId' e stamp)) history runId record where
  behind := Int.le_trans h.behind (j.lastOffset_le_append _ runId)
  inStep := by
    rw [unread_append_trace h.behind, if_neg hne]
    exact h.inStep

/-- An operation of another facade. -/
theorem Follows.append (h : Follows j history runId record) {e : TraceEvent} (hbegun : Begun (history ++ [e]))
    (stamp : Stamp) : Follows (j.append (traceCommit runId e stamp)) (history ++ [e]) runId record where
  behind := Int.le_trans h.behind (j.lastOffset_le_append _ runId)
  inStep := by
    obtain ⟨seen, hhistory, hstep⟩ := h.inStep
    rw [unread_append_trace h.behind, if_pos rfl]
    rw [hhistory, List.append_assoc] at hbegun ⊢
    exact ⟨seen, rfl, hstep.append hbegun⟩

theorem Follows.perform_begun (h : Follows j history runId record) {n : Notification} {now : String}
    {e : TraceEvent} (hperform : record.perform now n = .goesOn record')
    (hevent : n.traceEvent now = some e) : Begun (history ++ [e]) := by
  obtain ⟨seen, hhistory, hstep⟩ := h.inStep
  rw [hhistory]
  exact hstep.perform_begun hperform hevent

/-- An operation of this facade. -/
theorem Follows.perform (h : Follows j history runId record) {n : Notification} {now : String}
    {e : TraceEvent} (hperform : record.perform now n = .goesOn record')
    (hevent : n.traceEvent now = some e) (stamp : Stamp) :
    Follows (j.append (traceCommit runId e stamp)) (history ++ [e]) runId record' := by
  have hoffset := (RunRecord.perform_gates hperform hevent).offset
  constructor
  · rw [hoffset]
    exact Int.le_trans h.behind (j.lastOffset_le_append _ runId)
  · obtain ⟨seen, hhistory, hstep⟩ := h.inStep
    rw [hoffset, unread_append_trace h.behind, if_pos rfl, hhistory, List.append_assoc]
    exact ⟨seen, rfl, hstep.perform hperform hevent⟩

/-- A query has read the whole history. -/
theorem Follows.read (h : Follows j history runId record) (hactive : ∀ e ∈ history, e.OpensActive) :
    InStep (record.rebuild (j.load runId record.rebuildOffset)) history [] := by
  obtain ⟨seen, hhistory, hstep⟩ := h.inStep
  have hunread : ∀ e ∈ unread j runId record.rebuildOffset, e.OpensActive := by
    intro e he
    apply hactive
    rw [hhistory]
    exact List.mem_append_right _ he
  have hread := hstep.read hunread
  rw [← hhistory] at hread
  have hevents : ((j.load runId record.rebuildOffset).filter
      (fun event => Text.startsWith event.eventType "trace.")).filterMap readTraceEvent =
        unread j runId record.rebuildOffset := filterMap_trace _
  rw [← hevents] at hread
  exact ⟨⟨hread.named.stages, hread.named.branches⟩, hread.stages, hread.branches, hread.opened,
    hread.resolved, hread.rejected⟩

theorem Follows.query (h : Follows j history runId record) (hactive : ∀ e ∈ history, e.OpensActive) :
    Follows j history runId (record.rebuild (j.load runId record.rebuildOffset)) where
  behind := by
    refine foldl_max_le h.behind (fun event hevent => ?_)
    exact Journal.le_lastOffset_of_mem_load (List.mem_filter.mp hevent).1
  inStep := by
    rw [unread_rebuild]
    exact ⟨history, (List.append_nil _).symm, h.read hactive⟩

end

/-! ### Every facade -/

namespace TraceWorld

/-- The log holds the history of every run, and every facade is in step with it. -/
structure Sound (w : TraceWorld) : Prop where
  recorded : ∀ runId, unread w.journal runId 0 = w.history runId
  active : ∀ runId, ∀ e ∈ w.history runId, e.OpensActive
  follows : ∀ i runId, Follows w.journal (w.history runId) runId ((w.facades i).of runId)

theorem sound_opened (bounds : Nat → Nat) : (opened bounds).Sound where
  recorded := fun _ => rfl
  active := by
    intro runId e he
    cases he
  follows := by
    intro i runId
    refine ⟨Int.le_refl _, [], rfl, ?_⟩
    exact inStep_empty ⟨fun _ => trivial, fun _ => trivial⟩

/-- One facade changes its registries, and stays in step. -/
theorem Sound.withFacade {w : TraceWorld} (h : w.Sound) (i : Nat) {r : Registry}
    (hfollows : ∀ runId, Follows w.journal (w.history runId) runId (r.of runId)) :
    (w.withFacade i r).Sound where
  recorded := h.recorded
  active := h.active
  follows := by
    intro i' runId
    show Follows w.journal (w.history runId) runId ((Function.update w.facades i r i').of runId)
    by_cases hi : i' = i
    · rw [hi, Function.update_self]
      exact hfollows runId
    · rw [Function.update_of_ne hi]
      exact h.follows i' runId

/-- Tracking a run leaves a facade in step with all of them. -/
theorem Sound.touched {w : TraceWorld} (h : w.Sound) (i : Nat) (n : Notification) (runId : String) :
    Follows w.journal (w.history runId) runId
      ((if n.touches then (w.facades i).touchRun n.runId else w.facades i).of runId) := by
  split
  · rcases (w.facades i).of_touchRun n.runId runId with hsame | hpurged
    · rw [hsame]
      exact h.follows i runId
    · rw [hpurged]
      exact (h.follows i runId).purge (h.recorded runId)
  · exact h.follows i runId

theorem Sound.query {w : TraceWorld} (h : w.Sound) (i : Nat) (runId : String) : (w.query i runId).1.Sound := by
  apply h.withFacade i
  intro runId'
  rw [Registry.of_update]
  split
  · rename_i hrun
    rw [hrun]
    exact (h.follows i runId).query (h.active runId)
  · exact h.follows i runId'

theorem Sound.append {w : TraceWorld} (h : w.Sound) {commit : ActionCommit} (huntraced : Untraced commit) :
    Sound { w with journal := w.journal.append commit } where
  recorded := by
    intro runId
    rw [unread_append_untraced (w.journal.lastOffset_nonneg runId) huntraced]
    exact h.recorded runId
  active := h.active
  follows := fun i runId => (h.follows i runId).append_untraced huntraced

/-- What an operation adds to the history. -/
theorem history_performed (w : TraceWorld) (n : Notification) (now runId : String) (j : Journal)
    (facades : Nat → Registry) :
    history ⟨j, facades, w.performed ++ [(n, now)]⟩ runId =
      if runId = n.runId then w.history runId ++ (n.traceEvent now).toList else w.history runId := by
  unfold history
  rw [List.filterMap_append]
  by_cases hrun : runId = n.runId
  · have hrun' : n.runId = runId := hrun.symm
    cases hevent : n.traceEvent now <;> simp [hrun', hevent]
  · have hrun' : ¬ n.runId = runId := fun h => hrun h.symm
    simp [hrun, hrun']

/-- An operation without an event. -/
theorem Sound.performed_untraced {w : TraceWorld} (h : w.Sound) (i : Nat) {n : Notification} {now : String}
    {r : Registry} (hfollows : ∀ runId, Follows w.journal (w.history runId) runId (r.of runId))
    (hevent : n.traceEvent now = none) :
    Sound ⟨w.journal, Function.update w.facades i r, w.performed ++ [(n, now)]⟩ := by
  have hhistory : ∀ runId,
      history ⟨w.journal, Function.update w.facades i r, w.performed ++ [(n, now)]⟩ runId =
        w.history runId := by
    intro runId
    rw [history_performed, hevent]
    simp
  have hsound := h.withFacade i hfollows
  refine ⟨fun runId => ?_, fun runId => ?_, fun i' runId => ?_⟩
  · rw [hhistory]
    exact hsound.recorded runId
  · rw [hhistory]
    exact hsound.active runId
  · rw [hhistory]
    exact hsound.follows i' runId

/-- An operation and its event. -/
theorem Sound.performed {w : TraceWorld} (h : w.Sound) (i : Nat) {n : Notification} {stamp : Stamp}
    {r : Registry} {record : RunRecord} {e : TraceEvent}
    (hfollows : ∀ runId, Follows w.journal (w.history runId) runId (r.of runId))
    (hperform : (r.of n.runId).perform stamp.now n = .goesOn record)
    (hevent : n.traceEvent stamp.now = some e) :
    Sound ⟨w.journal.append (traceCommit n.runId e stamp),
      Function.update w.facades i (r.update n.runId record), w.performed ++ [(n, stamp.now)]⟩ := by
  have hbegun := (hfollows n.runId).perform_begun hperform hevent
  refine ⟨fun runId => ?_, fun runId => ?_, fun i' runId => ?_⟩
  · rw [history_performed, hevent]
    show unread (w.journal.append (traceCommit n.runId e stamp)) runId 0 = _
    rw [unread_append_trace (w.journal.lastOffset_nonneg runId), h.recorded]
    rfl
  · rw [history_performed, hevent]
    split
    · intro e' he'
      rcases List.mem_append.mp he' with he' | he'
      · exact h.active runId e' he'
      · rw [Option.toList_some, List.mem_singleton] at he'
        exact he' ▸ traceEvent_opensActive hevent
    · exact h.active runId
  · rw [history_performed, hevent]
    show Follows (w.journal.append (traceCommit n.runId e stamp)) _ runId
      ((Function.update w.facades i (r.update n.runId record) i').of runId)
    by_cases hi : i' = i
    · rw [hi, Function.update_self, Registry.of_update]
      by_cases hrun : runId = n.runId
      · subst hrun
        rw [if_pos rfl, if_pos rfl]
        exact (hfollows n.runId).perform hperform hevent stamp
      · rw [if_neg hrun, if_neg hrun]
        exact (hfollows runId).append_other hrun e stamp
    · rw [Function.update_of_ne hi]
      by_cases hrun : runId = n.runId
      · subst hrun
        rw [if_pos rfl]
        exact (h.follows i' n.runId).append hbegun stamp
      · rw [if_neg hrun]
        exact (h.follows i' runId).append_other hrun e stamp

theorem Sound.operate {w : TraceWorld} (h : w.Sound) (i : Nat) (n : Notification) (stamp : Stamp) :
    (w.operate i n stamp).Sound := by
  have htouched := h.touched i n
  unfold TraceWorld.operate
  generalize (if n.touches then (w.facades i).touchRun n.runId else w.facades i) = r at htouched
  simp only
  split
  · exact h.withFacade i htouched
  · exact h.withFacade i htouched
  · rename_i record hperform
    cases hevent : n.traceEvent stamp.now with
    | none =>
      refine h.performed_untraced i (fun runId => ?_) hevent
      rw [RunRecord.perform_untraced hperform hevent, Registry.of_update]
      split
      · rename_i hrun
        rw [← hrun]
        exact htouched runId
      · exact htouched runId
    | some e => exact h.performed i htouched hperform hevent

/-- **Every facade stays in step with the history of every run.** -/
theorem sound_run (bounds : Nat → Nat) (labels : List TraceLabel) : (run next (opened bounds) labels).Sound := by
  refine run_invariant (fun w label h => ?_) (sound_opened bounds) labels
  cases label with
  | operate i n stamp => exact h.operate i n stamp
  | query i runId => exact h.query i runId
  | append commit untraced => exact h.append untraced

/-! ### A new facade -/

/-- The facade a label is about. -/
def facadeOf : TraceLabel → Option Nat
  | .operate i _ _ => some i
  | .query i _ => some i
  | .append _ _ => none

/-- A facade nobody used is new. -/
theorem unused_run (bounds : Nat → Nat) (i : Nat) (labels : List TraceLabel)
    (hunused : ∀ label ∈ labels, facadeOf label ≠ some i) :
    (run next (opened bounds) labels).facades i = { maxTrackedRuns := bounds i } := by
  refine run_invariant_of (A := fun label => facadeOf label ≠ some i)
    (I := fun w : TraceWorld => w.facades i = { maxTrackedRuns := bounds i })
    (fun w label hne hsame => ?_) rfl labels hunused
  cases label with
  | operate i' n stamp =>
    have hi : i ≠ i' := fun h => hne (congrArg some h.symm)
    simp only [next, TraceWorld.operate]
    split
    · simpa only [TraceWorld.withFacade, Function.update_of_ne hi] using hsame
    · simpa only [TraceWorld.withFacade, Function.update_of_ne hi] using hsame
    · simpa only [Function.update_of_ne hi] using hsame
  | query i' runId =>
    have hi : i ≠ i' := fun h => hne (congrArg some h.symm)
    simpa only [next, TraceWorld.query, TraceWorld.withFacade, Function.update_of_ne hi] using hsame
  | append commit untraced => exact hsame

theorem exists_unused (labels : List TraceLabel) : ∃ i, ∀ label ∈ labels, facadeOf label ≠ some i := by
  have hbound : ∃ bound, ∀ label ∈ labels, ∀ i, facadeOf label = some i → i < bound := by
    induction labels with
    | nil => exact ⟨0, fun _ h => absurd h List.not_mem_nil⟩
    | cons label rest ih =>
      obtain ⟨bound, hrest⟩ := ih
      refine ⟨max bound ((facadeOf label).getD 0 + 1), fun label' hlabel' i hi => ?_⟩
      rcases List.mem_cons.mp hlabel' with rfl | hlabel'
      · rw [hi, Option.getD_some]
        omega
      · have hlt := hrest label' hlabel' i hi
        omega
  obtain ⟨bound, hbound⟩ := hbound
  exact ⟨bound, fun label hlabel heq => Nat.lt_irrefl _ (hbound label hlabel bound heq)⟩

end TraceWorld

/-! ### What a query tells -/

section
variable {record : RunRecord} {history : List TraceEvent}

theorem InStep.mem_open (h : InStep record history []) (g : String) :
    g ∈ record.openHumanGates ↔ g ∈ history.filterMap TraceEvent.namesGate? := by
  rw [List.mem_filterMap]
  exact h.opened.iff_named g

theorem InStep.mem_resolved (h : InStep record history []) (g : String) :
    g ∈ record.resolvedHumanGates ↔ g ∈ history.filterMap TraceEvent.resolvesGate? := by
  rw [List.mem_filterMap]
  exact h.resolved.iff_named g

/-- Of the outcome of the review only the rejections are the record's own. -/
theorem InStep.reviewState (h : InStep record history []) :
    record.reviewState =
      if history.filterMap TraceEvent.namesGate? = [] then .notRequired
      else if ∃ g ∈ history.filterMap TraceEvent.namesGate?,
          g ∉ history.filterMap TraceEvent.resolvesGate? then .requested
      else if ∃ g ∈ record.resolvedHumanGates, record.gateResolutions.get? g = some .rejected then .rejected
      else .approved := by
  have hempty : record.openHumanGates = [] ↔ history.filterMap TraceEvent.namesGate? = [] := by
    simp only [List.eq_nil_iff_forall_not_mem, h.mem_open]
  have hpending : (∃ g ∈ record.openHumanGates, g ∉ record.resolvedHumanGates) ↔
      ∃ g ∈ history.filterMap TraceEvent.namesGate?, g ∉ history.filterMap TraceEvent.resolvesGate? := by
    simp only [h.mem_open, h.mem_resolved]
  unfold RunRecord.reviewState
  exact if_congr hempty rfl (if_congr hpending rfl rfl)

/-- Where no rejection decides the review, a reader tells its outcome. -/
theorem InStep.review_told (h : InStep record history [])
    (hplain : history.filterMap TraceEvent.rejectsGate? ≠ [] →
      ∃ g ∈ history.filterMap TraceEvent.namesGate?, g ∉ history.filterMap TraceEvent.resolvesGate?) :
    record.reviewState = reviewOf history := by
  rw [h.reviewState, reviewOf]
  refine if_congr Iff.rfl rfl ?_
  split
  · rfl
  · rename_i hpending
    have hnone : ¬ history.filterMap TraceEvent.rejectsGate? ≠ [] := fun hrejects => hpending (hplain hrejects)
    have hlocal : ¬ ∃ g ∈ record.resolvedHumanGates, record.gateResolutions.get? g = some .rejected := by
      intro ⟨g, _, hrejected⟩
      obtain ⟨e, he, hname⟩ := h.rejected g hrejected
      rw [List.append_nil] at he
      exact hnone (List.ne_nil_of_mem (List.mem_filterMap.mpr ⟨e, he, hname⟩))
    rw [if_neg hnone, if_neg hlocal]

theorem names_of_rejects {e : TraceEvent} {g : String} (h : e.rejectsGate? = some g) :
    e.namesGate? = some g := by
  cases e with
  | humanGateResolved ref approved =>
    cases approved with
    | false => exact h
    | true => cases h
  | _ => cases h

/-- A reader that knows of no rejection tells the outcome only where none decides it. -/
theorem InStep.plain_review (h : InStep record history [])
    (hunknown : ∀ g, record.gateResolutions.get? g ≠ some .rejected)
    (htold : record.reviewState = reviewOf history)
    (hrejects : history.filterMap TraceEvent.rejectsGate? ≠ []) :
    ∃ g ∈ history.filterMap TraceEvent.namesGate?, g ∉ history.filterMap TraceEvent.resolvesGate? := by
  have hnamed : history.filterMap TraceEvent.namesGate? ≠ [] := by
    obtain ⟨g, hg⟩ := List.exists_mem_of_ne_nil _ hrejects
    obtain ⟨e, he, hname⟩ := List.mem_filterMap.mp hg
    exact List.ne_nil_of_mem (List.mem_filterMap.mpr ⟨e, he, names_of_rejects hname⟩)
  have hlocal : ¬ ∃ g ∈ record.resolvedHumanGates, record.gateResolutions.get? g = some .rejected :=
    fun ⟨g, _, hrejected⟩ => hunknown g hrejected
  by_contra hpending
  rw [h.reviewState, reviewOf, if_neg hnamed, if_neg hnamed, if_neg hpending, if_neg hpending,
    if_neg hlocal, if_pos hrejects] at htold
  cases htold

theorem InStep.told_stage (h : InStep record history []) (id : String) :
    (record.view.stages.find? (fun s => s.stageId = id)).map TraceStageView.state = record.stageState id :=
  congrArg (Option.map TraceStageView.state) (h.named.stages.find?_values id)

theorem InStep.told_branch (h : InStep record history []) (id : String) :
    (record.view.branches.find? (fun b => b.branchId = id)).map TraceBranchView.state =
      record.branchState id :=
  congrArg (Option.map TraceBranchView.state) (h.named.branches.find?_values id)

/-- **A plain history is told by every reader.** -/
theorem InStep.told (h : InStep record history []) (hplain : Plain history) : Told history record.view where
  stages := by
    intro id
    have hreport := (h.stages id).report (by simpa using hplain.stages id)
    rw [h.told_stage]
    simpa using hreport
  branches := by
    intro id
    have hreport := (h.branches id).report (by simpa using hplain.branches id)
    rw [h.told_branch]
    simpa using hreport
  review := h.review_told hplain.review

end

/-- **Only a plain history is told by a new facade.** -/
theorem TraceWorld.Sound.plain_of_told {w : TraceWorld} (h : w.Sound) {i bound : Nat}
    (hnew : w.facades i = { maxTrackedRuns := bound }) {runId : String}
    (htold : Told (w.history runId) (w.query i runId).2) : Plain (w.history runId) := by
  have hread : InStep (w.queried i runId) (w.history runId) [] := (h.follows i runId).read (h.active runId)
  have hbegun := (h.follows i runId).begun
  have hrecord : w.queried i runId = RunRecord.rebuild {} (w.journal.load runId 0) := by
    unfold TraceWorld.queried
    rw [hnew]
    rfl
  have hevents : ((w.journal.load runId 0).filter
      (fun event => Text.startsWith event.eventType "trace.")).filterMap readTraceEvent =
        w.history runId := (filterMap_trace _).trans (h.recorded runId)
  have hactive := h.active runId
  rw [← hevents] at hactive
  constructor
  · intro id
    have hstate : (w.queried i runId).stageState id =
        run (absorb .active) none ((w.history runId).filterMap (TraceEvent.stageTouch id)) := by
      rw [hrecord, ← hevents]
      exact stageState_run {} hactive id
    rw [← report_none_iff _ (hbegun.stages id), ← hstate, ← hread.told_stage]
    exact htold.stages id
  · intro id
    have hstate : (w.queried i runId).branchState id =
        run (absorb .active) none ((w.history runId).filterMap (TraceEvent.branchTouch id)) := by
      rw [hrecord, ← hevents]
      exact branchState_run {} hactive id
    rw [← report_none_iff _ (hbegun.branches id), ← hstate, ← hread.told_branch]
    exact htold.branches id
  · apply hread.plain_review _ htold.review
    intro g hrejected
    rw [hrecord] at hrejected
    have hnone : (RunRecord.rebuild {} (w.journal.load runId 0)).gateResolutions = Dict.empty :=
      gateResolutions_run {} _
    rw [hnone] at hrejected
    cases hrejected

/-- **When the state of a trace is told.** After any operations and queries of any
facades over one log, every facade, also a new one, tells the last state of every stage and branch
and the outcome of the review, exactly when the history is plain. -/
theorem trace_state_told_iff (bounds : Nat → Nat) (labels : List TraceLabel) (runId : String) :
    let w := run TraceWorld.next (TraceWorld.opened bounds) labels
    (∀ i, Told (w.history runId) (w.query i runId).2) ↔ Plain (w.history runId) := by
  intro w
  have hsound : w.Sound := TraceWorld.sound_run bounds labels
  constructor
  · intro htold
    obtain ⟨i, hunused⟩ := TraceWorld.exists_unused labels
    exact hsound.plain_of_told (TraceWorld.unused_run bounds i labels hunused) (htold i)
  · intro hplain i
    exact ((hsound.follows i runId).read (hsound.active runId)).told hplain

namespace Sample

/-- A stage is opened, completed and opened again. -/
def reopened : TraceWorld :=
  run TraceWorld.next (TraceWorld.opened (fun _ => 10))
    [.operate 0 (.openStage "route" "run" none) {}, .operate 0 (.markStageState "run" "route" .completed none) {},
     .operate 0 (.openStage "route" "run" none) {}]

/-- A gate is opened and rejected. -/
def rejected : TraceWorld :=
  run TraceWorld.next (TraceWorld.opened (fun _ => 10))
    [.operate 0 (.openHumanGate
        { gateRef := "gate"
          gateType := .finalApproval
          runId := "run"
          triggerReason := "review"
          triggerSource := .human }) {},
     .operate 0 (.submitApproval
        { runId := "run"
          approvalRef := "gate"
          approved := false
          reviewerId := "reviewer" }) {}]

end Sample

/-- Another facade tells the reopened stage completed, and the rejected gate approved. -/
theorem reopened_and_rejected_not_told :
    ¬ Told (Sample.reopened.history "run") (Sample.reopened.query 1 "run").2 ∧
      ¬ Told (Sample.rejected.history "run") (Sample.rejected.query 1 "run").2 := by
  constructor
  · intro h
    have htold : some TraceStageState.completed = some TraceStageState.active := h.stages "route"
    cases htold
  · intro h
    have htold : TraceReviewState.approved = TraceReviewState.rejected := h.review
    cases htold

end AgentKernel.Facade
