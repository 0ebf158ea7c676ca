import Mathlib.Data.List.TakeWhile
import Mathlib.Logic.Function.Basic
import AgentKernel.Events.Log
import AgentKernel.Projection.Fold

/-! The projection service over an event log.

Calls on one run take turns: a call acquires the lock of its run, reads the cached
projection, loads the events after its offset, applies them and stores the result.
Loading is awaited, so other calls and appends happen in between; a call may also be
cancelled, while it waits or while it holds the lock. `step` is one such move, and a
run of the service is any list of moves.

The log may be any whose offsets increase strictly in each run. The cache is always the replay
of the run's events up to the largest bound a call has asked for (`Rebuilt`), so every call
returns the projection that a fresh service would compute, as long as no append makes the log
drop events (`projection_rebuildable`). The in-memory log retains a bounded number of runs; once
it drops one, the service goes on answering from its cache (`evicted_run_not_rebuildable`). -/
namespace AgentKernel.Projection
open Lib Events

/-! ### The event log -/

/-- An event log, whose runs have strictly increasing offsets. -/
structure OffsetLog where
  eventsOf : String → List RuntimeEvent
  increasing : ∀ runId, (eventsOf runId).Pairwise (fun e e' => e.commitOffset < e'.commitOffset)

namespace OffsetLog

/-- `load`. -/
def load (log : OffsetLog) (runId : String) (afterOffset : Int) : List RuntimeEvent :=
  (log.eventsOf runId).filter (fun e => afterOffset < e.commitOffset)

/-- All of a run that `load` returns. -/
def all (log : OffsetLog) (runId : String) : List RuntimeEvent := log.load runId 0

theorem indexed_all (log : OffsetLog) (runId : String) : Indexed RuntimeEvent.commitOffset (log.all runId) where
  sorted := (log.increasing runId).filter _
  positive := fun e he => by simpa using (List.mem_filter.mp he).2

/-- What `load` returns after an offset is a part of it. -/
theorem load_eq (log : OffsetLog) {runId : String} {afterOffset : Int} (h : 0 ≤ afterOffset) :
    log.load runId afterOffset = (log.all runId).filter (fun e => afterOffset < e.commitOffset) := by
  unfold all load
  rw [List.filter_filter]
  refine List.filter_congr (fun e _ => ?_)
  by_cases hafter : afterOffset < e.commitOffset
  · have hpos : 0 < e.commitOffset := by omega
    simp [hafter, hpos]
  · simp [hafter]

end OffsetLog

/-- An event log as the service sees it: what it holds of each run, and what an append makes of
it. -/
structure EventLogPort (L : Type) where
  view : L → OffsetLog
  appendActionCommit : L → ActionCommit → L

/-- The in-memory log. -/
def inMemoryLog : EventLogPort InMemoryKernelRuntimeEventLog where
  view := fun log => ⟨log.eventsOf, fun runId => (log.indexed runId).sorted⟩
  appendActionCommit := fun log commit => (InMemoryKernelRuntimeEventLog.appendActionCommit commit).after log

/-! ### Replaying unseen events -/

structure ProjectionConfig where
  rejectDerivedDiagnosticAuthorityInput : Bool := true
  /-- `EventSchemaMigrator.migrate`. -/
  eventSchemaMigrator : Option (RuntimeEvent → String → Except PyError RuntimeEvent) := none
  targetEventSchemaVersion : Option String := none

/-- `_maybe_migrate_event`. -/
def maybeMigrateEvent (config : ProjectionConfig) (event : RuntimeEvent) : Except PyError RuntimeEvent :=
  match config.eventSchemaMigrator, config.targetEventSchemaVersion with
  | some migrate, some version => migrate event version
  | _, _ => .ok event

/-- `_validate_projection_authority_input`. -/
def validateProjectionAuthorityInput (event : RuntimeEvent) (reject : Bool) : Bool :=
  !(reject && event.eventAuthority = .derivedDiagnostic)

/-- The loop over the unseen events; `through` is where `catch_up` breaks off. -/
def replayUnseen (config : ProjectionConfig) (through : Option Int) :
    RunProjection → List RuntimeEvent → Except PyError RunProjection
  | projection, [] => .ok projection
  | projection, event :: rest =>
    if through.any (fun t => event.commitOffset > t) then .ok projection
    else do
      let event ← maybeMigrateEvent config event
      if validateProjectionAuthorityInput event config.rejectDerivedDiagnosticAuthorityInput then
        replayUnseen config through (applyProjectionEvent projection event) rest
      else replayUnseen config through projection rest

/-! ### The service -/

inductive Request where
  | catchUp (throughOffset : Int)
  | get
  | readiness (requiredOffset : Int)
  deriving DecidableEq, Repr

/-- Only `catch_up` stops at an offset. -/
def Request.through : Request → Option Int
  | .catchUp t => some t
  | .get => none
  | .readiness _ => none

inductive Answer where
  | projection (p : RunProjection)
  | ready (b : Bool)

def Request.answer : Request → RunProjection → Answer
  | .readiness required, p => .ready (p.projectedOffset ≥ required)
  | _, p => .projection p

/-- The events a call loaded, and all that `load` had of its run then. -/
structure Loaded where
  events : List RuntimeEvent
  log : List RuntimeEvent

/-- The call that holds the lock of a run. -/
structure Holder where
  request : Request
  projection : RunProjection
  loaded : Option Loaded := none

/-- A call that returned: what it was about, all that `load` had of its run then, its
projection, and the largest bound asked of the run so far. -/
structure Completed where
  runId : String
  request : Request
  log : List RuntimeEvent
  projection : RunProjection
  bound : Int

/-- What the caller gets. -/
def Completed.answer (c : Completed) : Answer := c.request.answer c.projection

structure ProjectionService (L : Type) where
  log : L
  projectionByRun : Dict String RunProjection
  waiting : List (String × Request)
  /-- The run locks. -/
  holder : String → Option Holder
  /-- The largest bound asked of each run so far. -/
  reached : String → Int
  completed : List Completed

namespace ProjectionService
variable {L : Type} (port : EventLogPort L)

/-- A service that has not been called yet. -/
def fresh (log : L) : ProjectionService L :=
  { log := log
    projectionByRun := Dict.empty
    waiting := []
    holder := fun _ => none
    reached := fun _ => 0
    completed := [] }

/-- All that `load` has of a run. -/
def events (s : ProjectionService L) (runId : String) : List RuntimeEvent := (port.view s.log).all runId

def cached (s : ProjectionService L) (runId : String) : RunProjection :=
  (s.projectionByRun.get? runId).getD (defaultProjection runId)

inductive Move where
  | append (commit : ActionCommit)
  | invoke (runId : String) (request : Request)
  | acquire (i : Nat)
  | load (runId : String)
  | finish (runId : String)
  | abandon (runId : String)
  | withdraw (i : Nat)

/-- The bound a call asks for: the end of the log, or less if it says so. -/
def boundOf (request : Request) (log : List RuntimeEvent) : Int :=
  match request.through with
  | none => lastIndex RuntimeEvent.commitOffset log
  | some t => min t (lastIndex RuntimeEvent.commitOffset log)

def acquire (s : ProjectionService L) (i : Nat) : ProjectionService L :=
  match s.waiting[i]? with
  | none => s
  | some (runId, request) =>
    match s.holder runId with
    | some _ => s
    | none =>
      { s with
        waiting := s.waiting.eraseIdx i
        holder := Function.update s.holder runId (some ⟨request, s.cached runId, none⟩) }

def load (s : ProjectionService L) (runId : String) : ProjectionService L :=
  match s.holder runId with
  | some ⟨request, projection, none⟩ =>
    { s with holder := Function.update s.holder runId (some ⟨request, projection, some
        ⟨(port.view s.log).load runId projection.projectedOffset, s.events port runId⟩⟩) }
  | _ => s

/-- Release the lock without storing anything. -/
def release (s : ProjectionService L) (runId : String) : ProjectionService L :=
  { s with holder := Function.update s.holder runId none }

/-- Store the projection, release the lock and return. -/
def complete (s : ProjectionService L) (runId : String) (request : Request) (log : List RuntimeEvent)
    (projection : RunProjection) : ProjectionService L :=
  let bound := max (s.reached runId) (boundOf request log)
  { s.release runId with
    projectionByRun := s.projectionByRun.set runId projection
    reached := Function.update s.reached runId bound
    completed := s.completed ++ [⟨runId, request, log, projection, bound⟩] }

def finish (config : ProjectionConfig) (s : ProjectionService L) (runId : String) : ProjectionService L :=
  match s.holder runId with
  | some ⟨request, projection, some loaded⟩ =>
    match replayUnseen config request.through projection loaded.events with
    | .ok projection => s.complete runId request loaded.log projection
    | .error _ => s.release runId
  | _ => s

def step (config : ProjectionConfig) (s : ProjectionService L) : Move → ProjectionService L
  | .append commit => { s with log := port.appendActionCommit s.log commit }
  | .invoke runId request => { s with waiting := s.waiting ++ [(runId, request)] }
  | .acquire i => s.acquire i
  | .load runId => s.load port runId
  | .finish runId => s.finish config runId
  | .abandon runId => s.release runId
  | .withdraw i => { s with waiting := s.waiting.eraseIdx i }

end ProjectionService

/-! ### The projection as a replay -/

/-- What a run's projection replays: all but its diagnostics. -/
def replayer (runId : String) : Replayer RuntimeEvent RunProjection where
  idx := RuntimeEvent.commitOffset
  keep := fun e => validateProjectionAuthorityInput e true
  step := applyProjectionEvent
  cursor := RunProjection.projectedOffset
  start := defaultProjection runId
  cursor_step := applyProjectionEvent_offset
  cursor_start := rfl

/-- The projection of a run's events up to a bound: the left fold over exactly the
events that are no diagnostics. -/
def projectionThrough (runId : String) (events : List RuntimeEvent) (bound : Int) : RunProjection :=
  foldProjection runId (events.filter (fun e =>
    e.eventAuthority ≠ .derivedDiagnostic && decide (e.commitOffset ≤ bound)))

theorem replay_eq_projectionThrough (runId : String) (events : List RuntimeEvent) (bound : Int) :
    (replayer runId).replay events bound = projectionThrough runId events bound := by
  show run applyProjectionEvent (defaultProjection runId) (upTo _ _ events bound) = _
  unfold projectionThrough foldProjection upTo
  congr 2
  funext e
  simp [replayer, validateProjectionAuthorityInput]

/-- By default the loop takes the kept events before it breaks off. -/
theorem replayUnseen_eq (through : Option Int) (p : RunProjection) (events : List RuntimeEvent) :
    replayUnseen {} through p events = .ok (run applyProjectionEvent p
      ((events.takeWhile (fun e => !through.any (fun t => e.commitOffset > t))).filter
        (fun e => validateProjectionAuthorityInput e true))) := by
  induction events generalizing p with
  | nil => rfl
  | cons e rest ih =>
    unfold replayUnseen
    by_cases hbreak : through.any (fun t => e.commitOffset > t) = true
    · rw [if_pos hbreak, List.takeWhile_cons_of_neg (by simp [hbreak])]
      rfl
    · rw [if_neg hbreak, List.takeWhile_cons_of_pos (by simpa using hbreak)]
      show (if validateProjectionAuthorityInput e true = true then _ else _) = _
      by_cases hkeep : validateProjectionAuthorityInput e true = true
      · rw [if_pos hkeep, List.filter_cons_of_pos (by simpa using hkeep), ih]
        rfl
      · rw [if_neg hkeep, List.filter_cons_of_neg (by simpa using hkeep), ih]

/-- **One call.** From the projection up to one bound, a call on the events after it
returns the projection up to the larger of that bound and its own. -/
theorem replayUnseen_resumes {runId : String} {log : List RuntimeEvent} {reached : Int}
    (hlog : Indexed RuntimeEvent.commitOffset log) (hpos : 0 ≤ reached)
    (hend : reached ≤ lastIndex RuntimeEvent.commitOffset log) (request : Request)
    {p : RunProjection} (hp : p = (replayer runId).replay log reached) :
    replayUnseen {} request.through p
        (log.filter (fun e => p.projectedOffset < e.commitOffset)) =
      .ok ((replayer runId).replay log (max reached (ProjectionService.boundOf request log))) := by
  subst hp
  rw [replayUnseen_eq]
  have hresume : ∀ t, (replayer runId).resume ((replayer runId).replay log reached) log t =
      (replayer runId).replay log (max reached (min t (lastIndex RuntimeEvent.commitOffset log))) :=
    (replayer runId).resume_replay hlog hpos hend
  congr 1
  cases hthrough : request.through with
  | some t =>
    rw [ProjectionService.boundOf, hthrough, ← hresume t]
    show run applyProjectionEvent _ _ = run applyProjectionEvent _ _
    congr 2
    congr 1
    funext e
    show (!decide (t < e.commitOffset)) = decide (e.commitOffset ≤ t)
    rw [← decide_not, decide_eq_decide]
    exact Int.not_lt
  | none =>
    have hall := hresume (lastIndex RuntimeEvent.commitOffset log)
    rw [min_self] at hall
    rw [ProjectionService.boundOf, hthrough, ← hall]
    show run applyProjectionEvent _ _ = run applyProjectionEvent _ _
    congr 2
    -- Neither loop breaks off before the end of the log.
    rw [List.takeWhile_eq_self_iff.mpr (by simp), List.takeWhile_eq_self_iff.mpr]
    · rfl
    · intro e he
      exact decide_eq_true (hlog.le_lastIndex (List.mem_of_mem_filter he))

theorem boundOf_le (request : Request) (log : List RuntimeEvent) :
    ProjectionService.boundOf request log ≤ lastIndex RuntimeEvent.commitOffset log := by
  unfold ProjectionService.boundOf
  split
  · exact Int.le_refl _
  · exact Int.min_le_right _ _

/-- The projection replays a part of the events. -/
def Replays (runId : String) (events : List RuntimeEvent) (p : RunProjection) : Prop :=
  ∃ reached, 0 ≤ reached ∧ reached ≤ lastIndex RuntimeEvent.commitOffset events ∧
    p = (replayer runId).replay events reached

theorem replays_default {runId : String} {events : List RuntimeEvent}
    (h : Indexed RuntimeEvent.commitOffset events) : Replays runId events (defaultProjection runId) :=
  ⟨0, Int.le_refl 0, h.lastIndex_nonneg, ((replayer runId).replay_zero h).symm⟩

/-- Later events leave a part of the events what it is. -/
theorem Replays.append {runId : String} {events more : List RuntimeEvent} {p : RunProjection}
    (h : Replays runId events p)
    (hmore : ∀ e ∈ more, lastIndex RuntimeEvent.commitOffset events < e.commitOffset) :
    Replays runId (events ++ more) p := by
  obtain ⟨reached, hpos, hend, hp⟩ := h
  refine ⟨reached, hpos, Int.le_trans hend (lastIndex_append_le hmore), hp.trans ?_⟩
  refine ((replayer runId).replay_append (fun e he => ?_)).symm
  exact Int.lt_of_le_of_lt hend (hmore e he)

/-- A call brings a projection forward, to the end if it asks for everything. -/
theorem Replays.replayUnseen {runId : String} {events : List RuntimeEvent} {p : RunProjection}
    (h : Replays runId events p) (hindexed : Indexed RuntimeEvent.commitOffset events)
    (request : Request) :
    ∃ reached, 0 ≤ reached ∧ reached ≤ lastIndex RuntimeEvent.commitOffset events ∧
      Projection.replayUnseen {} request.through p
        (events.filter (fun e => p.projectedOffset < e.commitOffset)) =
        .ok ((replayer runId).replay events reached) ∧
      (request.through = none → reached = lastIndex RuntimeEvent.commitOffset events) := by
  obtain ⟨reached, hpos, hend, hp⟩ := h
  refine ⟨max reached (ProjectionService.boundOf request events), ?_, ?_,
    replayUnseen_resumes hindexed hpos hend request hp, fun hthrough => ?_⟩
  · exact Int.le_trans hpos (Int.le_max_left _ _)
  · exact Int.max_le.mpr ⟨hend, boundOf_le request events⟩
  · rw [ProjectionService.boundOf, hthrough]
    exact Int.max_eq_right hend

/-! ### The invariant -/

section
variable {L : Type} (port : EventLogPort L)

/-- A log whose runs only gained later events. -/
def Grows (log log' : OffsetLog) : Prop :=
  ∀ runId, ∃ more, log'.all runId = log.all runId ++ more ∧
    ∀ e ∈ more, lastIndex RuntimeEvent.commitOffset (log.all runId) < e.commitOffset

/-- What a call loaded is a past state of its run's log. -/
structure Snapshot (s : ProjectionService L) (runId : String) (h : Holder) (loaded : Loaded) : Prop where
  grown : ∃ more, s.events port runId = loaded.log ++ more ∧
    ∀ e ∈ more, lastIndex RuntimeEvent.commitOffset loaded.log < e.commitOffset
  indexed : Indexed RuntimeEvent.commitOffset loaded.log
  unseen : loaded.events =
    loaded.log.filter (fun e => h.projection.projectedOffset < e.commitOffset)
  reached : s.reached runId ≤ lastIndex RuntimeEvent.commitOffset loaded.log

/-- A call that returned the fold of its run up to the largest bound asked for, and, if it
asked for everything, what a fresh service computes from the same events. -/
structure CompletedRebuilt (s : ProjectionService L) (c : Completed) : Prop where
  rebuilt : c.projection = (replayer c.runId).replay (s.events port c.runId) c.bound
  bound_le : c.bound ≤ s.reached c.runId
  fresh : c.request.through = none →
    replayUnseen {} none (defaultProjection c.runId)
      (c.log.filter (fun e => 0 < e.commitOffset)) = .ok c.projection

/-- **The invariant of the service.** -/
structure Rebuilt (s : ProjectionService L) : Prop where
  cache : ∀ runId, s.cached runId =
    (replayer runId).replay (s.events port runId) (s.reached runId)
  reached : ∀ runId, 0 ≤ s.reached runId ∧
    s.reached runId ≤ lastIndex RuntimeEvent.commitOffset (s.events port runId)
  holder : ∀ runId h, s.holder runId = some h → h.projection = s.cached runId ∧
    ∀ loaded, h.loaded = some loaded → Snapshot port s runId h loaded
  completed : ∀ c ∈ s.completed, CompletedRebuilt port s c

theorem rebuilt_fresh (log : L) : Rebuilt port (.fresh log) where
  cache := fun runId => ((replayer runId).replay_zero ((port.view log).indexed_all runId)).symm
  reached := fun runId => ⟨Int.le_refl 0, ((port.view log).indexed_all runId).lastIndex_nonneg⟩
  holder := fun _ _ h => nomatch h
  completed := fun _ h => nomatch h

variable {port}

/-- Appends past what was asked for change no projection up to there. -/
theorem Rebuilt.grow {s : ProjectionService L} (h : Rebuilt port s) {log : L}
    (hgrows : Grows (port.view s.log) (port.view log)) : Rebuilt port { s with log := log } := by
  have hreplay : ∀ runId bound, bound ≤ s.reached runId →
      (replayer runId).replay ((port.view log).all runId) bound =
        (replayer runId).replay (s.events port runId) bound := by
    intro runId bound hbound
    obtain ⟨more, hmore, hlater⟩ := hgrows runId
    rw [hmore, ProjectionService.events]
    refine (replayer runId).replay_append (fun e he => ?_)
    have hle : s.reached runId ≤ lastIndex RuntimeEvent.commitOffset ((port.view s.log).all runId) :=
      (h.reached runId).2
    have hlt := hlater e he
    show bound < e.commitOffset
    omega
  refine ⟨?_, ?_, ?_, ?_⟩
  · intro runId
    show s.cached runId = _
    rw [h.cache runId]
    exact (hreplay runId _ (Int.le_refl _)).symm
  · intro runId
    obtain ⟨more, hmore, hlater⟩ := hgrows runId
    obtain ⟨hpos, hle⟩ := h.reached runId
    refine ⟨hpos, Int.le_trans hle ?_⟩
    show _ ≤ lastIndex RuntimeEvent.commitOffset ((port.view log).all runId)
    rw [hmore]
    exact lastIndex_append_le hlater
  · intro runId holder hholder
    obtain ⟨hproj, hloaded⟩ := h.holder runId holder hholder
    refine ⟨hproj, fun loaded hl => ?_⟩
    obtain ⟨⟨past, hpast, hlater'⟩, hindexed, hunseen, hreached⟩ := hloaded loaded hl
    obtain ⟨more, hmore, hlater⟩ := hgrows runId
    refine ⟨⟨past ++ more, ?_, ?_⟩, hindexed, hunseen, hreached⟩
    · show (port.view log).all runId = _
      rw [ProjectionService.events] at hpast
      rw [hmore, hpast, List.append_assoc]
    · intro e he
      rcases List.mem_append.mp he with he | he
      · exact hlater' e he
      · have hle := lastIndex_append_le hlater'
        have hlt := hlater e he
        rw [ProjectionService.events] at hpast
        rw [hpast] at hlt
        omega
  · intro c hc
    obtain ⟨hrebuilt, hbound, hfresh⟩ := h.completed c hc
    exact ⟨hrebuilt.trans (hreplay c.runId c.bound hbound).symm, hbound, hfresh⟩

/-- Handing a lock on loses nothing. -/
theorem Rebuilt.set_holder {s : ProjectionService L} (h : Rebuilt port s) (runId : String)
    (x : Option Holder) (waiting : List (String × Request))
    (hx : ∀ holder, x = some holder → holder.projection = s.cached runId ∧
      ∀ loaded, holder.loaded = some loaded → Snapshot port s runId holder loaded) :
    Rebuilt port { s with waiting := waiting, holder := Function.update s.holder runId x } := by
  have hsame : ∀ other holder loaded, Snapshot port s other holder loaded →
      Snapshot port { s with waiting := waiting, holder := Function.update s.holder runId x } other holder
        loaded :=
    fun other holder loaded hs => ⟨hs.grown, hs.indexed, hs.unseen, hs.reached⟩
  refine ⟨h.cache, h.reached, ?_, fun c hc => ?_⟩
  · intro other holder hholder
    change Function.update s.holder runId x other = some holder at hholder
    by_cases hne : other = runId
    · subst hne
      rw [Function.update_self] at hholder
      obtain ⟨hproj, hloaded⟩ := hx holder hholder
      exact ⟨hproj, fun loaded hl => hsame _ _ _ (hloaded loaded hl)⟩
    · rw [Function.update_of_ne hne] at hholder
      obtain ⟨hproj, hloaded⟩ := h.holder other holder hholder
      exact ⟨hproj, fun loaded hl => hsame _ _ _ (hloaded loaded hl)⟩
  · obtain ⟨hrebuilt, hbound, hfresh⟩ := h.completed c hc
    exact ⟨hrebuilt, hbound, hfresh⟩

theorem Rebuilt.release {s : ProjectionService L} (h : Rebuilt port s) (runId : String) :
    Rebuilt port (s.release runId) :=
  h.set_holder runId none s.waiting (fun _ hx => nomatch hx)

/-- A call takes the lock with the cached projection. -/
theorem Rebuilt.acquire {s : ProjectionService L} (h : Rebuilt port s) (i : Nat) : Rebuilt port (s.acquire i) := by
  unfold ProjectionService.acquire
  split
  · exact h
  · split
    · exact h
    · refine h.set_holder _ _ _ (fun holder hx => ?_)
      cases hx
      exact ⟨rfl, fun _ hl => nomatch hl⟩

/-- What is loaded is the run's log at that moment. -/
theorem Rebuilt.load {s : ProjectionService L} (h : Rebuilt port s) (runId : String) :
    Rebuilt port (s.load port runId) := by
  unfold ProjectionService.load
  split
  · rename_i request projection hheld
    obtain ⟨hproj, _⟩ := h.holder runId _ hheld
    refine h.set_holder runId _ s.waiting (fun holder hx => ?_)
    cases hx
    refine ⟨hproj, fun loaded hl => ?_⟩
    cases hl
    have hcursor : 0 ≤ projection.projectedOffset := by
      rw [show projection = s.cached runId from hproj, h.cache runId]
      exact (replayer runId).cursor_replay_nonneg ((port.view s.log).indexed_all runId) _
    exact ⟨⟨[], (List.append_nil _).symm, fun _ he => nomatch he⟩, (port.view s.log).indexed_all runId,
      (port.view s.log).load_eq hcursor, (h.reached runId).2⟩
  · exact h

theorem cached_complete (s : ProjectionService L) (runId : String) (request : Request)
    (log : List RuntimeEvent) (p : RunProjection) (other : String) :
    (s.complete runId request log p).cached other = if other = runId then p else s.cached other := by
  show ((s.projectionByRun.set runId p).get? other).getD (defaultProjection other) = _
  rw [Dict.get?_set]
  split <;> rfl

/-- **A call returns the projection up to the largest bound asked for.** -/
theorem Rebuilt.complete {s : ProjectionService L} (h : Rebuilt port s) {runId : String} {holder : Holder}
    {loaded : Loaded} (hheld : s.holder runId = some holder) (hloaded : holder.loaded = some loaded) :
    ∃ p, replayUnseen {} holder.request.through holder.projection loaded.events = .ok p ∧
      Rebuilt port (s.complete runId holder.request loaded.log p) := by
  obtain ⟨hproj, hsnap⟩ := h.holder runId holder hheld
  obtain ⟨⟨more, hmore, hlater⟩, hindexed, hunseen, hreached⟩ := hsnap loaded hloaded
  obtain ⟨hpos, hle⟩ := h.reached runId
  -- What the call has cached is also the replay of the log it loaded.
  have hpast : ∀ bound, bound ≤ lastIndex RuntimeEvent.commitOffset loaded.log →
      (replayer runId).replay (s.events port runId) bound =
        (replayer runId).replay loaded.log bound := by
    intro bound hbound
    rw [hmore]
    exact (replayer runId).replay_append (fun e he => Int.lt_of_le_of_lt hbound (hlater e he))
  have hcached : holder.projection = (replayer runId).replay loaded.log (s.reached runId) := by
    rw [hproj, h.cache runId, hpast _ hreached]
  have hresult := replayUnseen_resumes hindexed hpos hreached holder.request hcached
  rw [← hunseen] at hresult
  have hbound : max (s.reached runId) (ProjectionService.boundOf holder.request loaded.log) ≤
      lastIndex RuntimeEvent.commitOffset loaded.log :=
    Int.max_le.mpr ⟨hreached, boundOf_le holder.request loaded.log⟩
  refine ⟨_, hresult, ?_⟩
  refine ⟨?_, ?_, ?_, ?_⟩
  · intro other
    rw [cached_complete]
    by_cases hne : other = runId
    · subst hne
      rw [if_pos rfl]
      show _ = (replayer other).replay (s.events port other) (Function.update s.reached other _ other)
      rw [Function.update_self, hpast _ hbound]
    · rw [if_neg hne, h.cache other]
      show _ = (replayer other).replay (s.events port other) (Function.update s.reached runId _ other)
      rw [Function.update_of_ne hne]
  · intro other
    show 0 ≤ Function.update s.reached runId _ other ∧ Function.update s.reached runId _ other ≤ _
    by_cases hne : other = runId
    · subst hne
      rw [Function.update_self]
      refine ⟨Int.le_trans hpos (Int.le_max_left _ _), Int.le_trans hbound ?_⟩
      show _ ≤ lastIndex RuntimeEvent.commitOffset (s.events port other)
      rw [hmore]
      exact lastIndex_append_le hlater
    · rw [Function.update_of_ne hne]
      exact h.reached other
  · intro other holder' hholder'
    have hne : other ≠ runId := by
      intro hsame
      obtain rfl := hsame
      simp [ProjectionService.complete, ProjectionService.release] at hholder'
    have hheld' : s.holder other = some holder' := by
      simpa [ProjectionService.complete, ProjectionService.release, Function.update_of_ne hne] using
        hholder'
    obtain ⟨hproj', hsnap'⟩ := h.holder other holder' hheld'
    refine ⟨by rw [cached_complete, if_neg hne]; exact hproj', fun loaded' hl => ?_⟩
    obtain ⟨hg, hi, hu, hr⟩ := hsnap' loaded' hl
    refine ⟨hg, hi, hu, ?_⟩
    show Function.update s.reached runId _ other ≤ _
    rw [Function.update_of_ne hne]
    exact hr
  · intro c hc
    have hmono : s.reached c.runId ≤ Function.update s.reached runId
        (max (s.reached runId) (ProjectionService.boundOf holder.request loaded.log)) c.runId := by
      by_cases hne : c.runId = runId
      · rw [hne, Function.update_self]
        exact Int.le_max_left _ _
      · rw [Function.update_of_ne hne]
    rcases List.mem_append.mp hc with hc | hc
    · obtain ⟨hr, hb, hf⟩ := h.completed c hc
      exact ⟨hr, Int.le_trans hb hmono, hf⟩
    · rw [List.mem_singleton.mp hc]
      refine ⟨(hpast _ hbound).symm, ?_, fun hnone => ?_⟩
      · show _ ≤ Function.update s.reached runId _ runId
        rw [Function.update_self]
      · -- A fresh service starts at zero and ends at the same bound.
        have hfresh := replayUnseen_resumes hindexed (Int.le_refl 0) hindexed.lastIndex_nonneg
          holder.request ((replayer runId).replay_zero hindexed).symm
        have hthrough : holder.request.through = none := hnone
        have hend : ProjectionService.boundOf holder.request loaded.log =
            lastIndex RuntimeEvent.commitOffset loaded.log := by
          simp [ProjectionService.boundOf, hthrough]
        rw [hend, Int.max_eq_right hindexed.lastIndex_nonneg, hthrough] at hfresh
        rw [hend, Int.max_eq_right hreached]
        exact hfresh

theorem Rebuilt.finish {s : ProjectionService L} (h : Rebuilt port s) (runId : String) :
    Rebuilt port (s.finish {} runId) := by
  unfold ProjectionService.finish
  split
  · rename_i request projection loaded hheld
    obtain ⟨p, hp, hrebuilt⟩ := h.complete hheld rfl
    simp only [hp]
    exact hrebuilt
  · exact h

/-! ### Runs that drop nothing -/

variable (port) in
/-- No append of the move makes the log drop events. -/
def Retains (s : ProjectionService L) : ProjectionService.Move → Prop
  | .append commit => ∀ runId, (port.view s.log).eventsOf runId <+:
      (port.view (port.appendActionCommit s.log commit)).eventsOf runId
  | _ => True

/-- Events behind those of a run have later offsets. -/
theorem grows_of_prefixes {log log' : OffsetLog} (h : ∀ runId, log.eventsOf runId <+: log'.eventsOf runId) :
    Grows log log' := by
  intro runId
  obtain ⟨more, hmore⟩ := h runId
  have hincreasing := log'.increasing runId
  rw [← hmore, List.pairwise_append] at hincreasing
  refine ⟨more.filter (fun e => 0 < e.commitOffset), ?_, fun e he => ?_⟩
  · unfold OffsetLog.all OffsetLog.load
    rw [← hmore, List.filter_append]
  · obtain ⟨hmem, hpos⟩ := List.mem_filter.mp he
    unfold lastIndex
    cases hlast : (log.all runId).getLast? with
    | none => simpa using hpos
    | some last =>
      exact hincreasing.2.2 last (List.mem_of_mem_filter (List.mem_of_getLast? hlast)) e hmem

theorem Rebuilt.step {s : ProjectionService L} (h : Rebuilt port s) {move : ProjectionService.Move}
    (hmove : Retains port s move) : Rebuilt port (s.step port {} move) := by
  have hsame : ∀ waiting, Rebuilt port { s with waiting := waiting } := by
    intro waiting
    have hset := h.set_holder "" (s.holder "") waiting (fun holder hx => h.holder "" holder hx)
    rwa [Function.update_eq_self] at hset
  cases move with
  | append commit => exact h.grow (grows_of_prefixes hmove)
  | invoke runId request => exact hsame _
  | acquire i => exact h.acquire i
  | load runId => exact h.load runId
  | finish runId => exact h.finish runId
  | abandon runId => exact h.release runId
  | withdraw i => exact hsame _

end

/-- **Projections can be rebuilt.** Over any log whose offsets increase strictly in each run, and in
every interleaving of appends and calls, on any runs, in which no append makes the log drop
events, every call returned the fold over exactly the events of its run up to the largest bound
asked for so far, diagnostics left out; and one that asked for everything returned what a fresh
service computes from the events it loaded. -/
theorem projection_rebuildable {L : Type} (port : EventLogPort L) (log : L)
    (moves : List ProjectionService.Move)
    (hmoves : Along (ProjectionService.step port {}) (Retains port) (.fresh log) moves) :
    let s := run (ProjectionService.step port {}) (.fresh log) moves
    ∀ c ∈ s.completed,
      c.projection = projectionThrough c.runId (s.events port c.runId) c.bound ∧
      (c.request.through = none →
        replayUnseen {} none (defaultProjection c.runId)
          (c.log.filter (fun e => 0 < e.commitOffset)) = .ok c.projection) := by
  intro s c hc
  have hrebuilt : Rebuilt port s :=
    run_invariant_along (fun _ _ hmove h => h.step hmove) (rebuilt_fresh port log) moves hmoves
  obtain ⟨hreplay, _, hfresh⟩ := hrebuilt.completed c hc
  exact ⟨hreplay.trans (replay_eq_projectionThrough c.runId _ c.bound), hfresh⟩

/-! ### The in-memory log -/

abbrev InMemoryService := ProjectionService InMemoryKernelRuntimeEventLog

theorem all_inMemoryLog (log : InMemoryKernelRuntimeEventLog) (runId : String) :
    (inMemoryLog.view log).all runId = log.eventsOf runId := by
  refine List.filter_eq_self.mpr (fun e he => ?_)
  exact decide_eq_true ((log.indexed runId).positive e he)

/-- An append loses nothing unless there are too many runs after it. -/
theorem retains_inMemory {s : InMemoryService} {commit : ActionCommit}
    (hroom : commit.events = [] ∨ (s.log.record commit).eventsByRun.size ≤ maxRetainedRuns) :
    Retains inMemoryLog s (.append commit) := by
  intro runId
  show s.log.eventsOf runId <+:
    ((InMemoryKernelRuntimeEventLog.appendActionCommit commit).after s.log).eventsOf runId
  by_cases hne : commit.events = []
  · rw [InMemoryKernelRuntimeEventLog.after_append_nil _ hne]
  · rw [InMemoryKernelRuntimeEventLog.after_append hne,
      InMemoryKernelRuntimeEventLog.eventsOf_evict_of_le (hroom.resolve_left hne), s.log.eventsOf_record]
    split
    · exact List.prefix_append _ _
    · exact List.prefix_rfl

/-- A commit of one event. -/
def commitOf (runId eventType : String) : ActionCommit :=
  { runId := runId
    commitId := eventType
    events := [factEvent runId eventType 0 none]
    createdAt := "" }

/-- One ready run, asked for its projection. -/
theorem projection_rebuildable_ready :
    let moves : List ProjectionService.Move :=
      [.append (commitOf "a" "run.ready"), .invoke "a" .get, .acquire 0, .load "a", .finish "a"]
    let s := run (ProjectionService.step inMemoryLog {}) (.fresh .empty) moves
    Along (ProjectionService.step inMemoryLog {}) (Retains inMemoryLog) (.fresh .empty) moves ∧
      ∀ c ∈ s.completed, c.projection = projectionThrough c.runId (s.events inMemoryLog c.runId) c.bound := by
  intro moves s
  have hretains : Along (ProjectionService.step inMemoryLog {}) (Retains inMemoryLog) (.fresh .empty) moves :=
    ⟨retains_inMemory (.inr (by decide)), trivial, trivial, trivial, trivial, trivial⟩
  exact ⟨hretains, fun c hc => (projection_rebuildable inMemoryLog .empty moves hretains c hc).1⟩

/-! ### A run that was dropped -/

/-- The names of the runs that push it out: `b`, `bb`, `bbb` and so on. -/
def crowdName (i : Nat) : String := String.ofList (List.replicate (i + 1) 'b')

def crowd (n : Nat) : List ProjectionService.Move :=
  (List.range n).map (fun i => .append (commitOf (crowdName i) "run.created"))

theorem crowdName_injective : Function.Injective crowdName := by
  intro i j h
  have hlist := congrArg (fun s => s.toList.length) h
  simpa [crowdName] using hlist

theorem crowdName_ne (i : Nat) : crowdName i ≠ "a" := by
  intro h
  have hlist := congrArg String.toList h
  simp [crowdName, List.replicate_succ] at hlist

theorem run_crowd_succ (s : InMemoryService) (n : Nat) :
    run (ProjectionService.step inMemoryLog {}) s (crowd (n + 1)) =
      (run (ProjectionService.step inMemoryLog {}) s (crowd n)).step inMemoryLog {}
        (.append (commitOf (crowdName n) "run.created")) := by
  rw [crowd, List.range_succ, List.map_append, run_append]
  rfl

/-- The crowd changes nothing but the log. -/
theorem run_crowd (s : InMemoryService) (n : Nat) :
    ∃ log, run (ProjectionService.step inMemoryLog {}) s (crowd n) = { s with log := log } := by
  induction n with
  | zero => exact ⟨s.log, rfl⟩
  | succ n ih =>
    obtain ⟨log, hlog⟩ := ih
    refine ⟨(InMemoryKernelRuntimeEventLog.appendActionCommit
      (commitOf (crowdName n) "run.created")).after log, ?_⟩
    rw [run_crowd_succ, hlog]
    rfl

theorem keys_step_crowd {s : InMemoryService} {n : Nat} (hnew : crowdName n ∉ s.log.eventsByRun.keys) :
    (s.step inMemoryLog {} (.append (commitOf (crowdName n) "run.created"))).log.eventsByRun.keys =
      if s.log.eventsByRun.size < maxRetainedRuns then s.log.eventsByRun.keys ++ [crowdName n]
      else (s.log.eventsByRun.keys ++ [crowdName n]).tail := by
  show ((InMemoryKernelRuntimeEventLog.appendActionCommit _).after s.log).eventsByRun.keys = _
  rw [InMemoryKernelRuntimeEventLog.after_append (by simp [commitOf])]
  exact s.log.keys_evict_record hnew

/-- The next of the crowd is new to a log that has the ones before. -/
theorem crowd_fresh {log : InMemoryKernelRuntimeEventLog} {n : Nat}
    (hkeys : log.eventsByRun.keys = "a" :: (List.range n).map crowdName) :
    crowdName n ∉ log.eventsByRun.keys ∧ log.eventsByRun.size = n + 1 := by
  constructor
  · rw [hkeys]
    simp only [List.mem_cons, List.mem_map, List.mem_range, not_or, not_exists, not_and]
    refine ⟨crowdName_ne n, fun i hi he => ?_⟩
    have hin := crowdName_injective he
    omega
  · rw [← Dict.length_keys, hkeys]
    simp

/-- Up to the bound the crowd lines up behind the first run. -/
theorem keys_run_crowd {s : InMemoryService} (hs : s.log.eventsByRun.keys = ["a"]) {n : Nat}
    (hn : n < maxRetainedRuns) :
    (run (ProjectionService.step inMemoryLog {}) s (crowd n)).log.eventsByRun.keys =
      "a" :: (List.range n).map crowdName := by
  induction n with
  | zero => exact hs
  | succ n ih =>
    have hkeys := ih (by omega)
    obtain ⟨hnew, hsize⟩ := crowd_fresh hkeys
    rw [run_crowd_succ, keys_step_crowd hnew, hsize, if_pos (by omega), hkeys, List.range_succ,
      List.map_append]
    rfl

/-- One run too many drops the first one. -/
theorem not_mem_keys_run_crowd {s : InMemoryService} (hs : s.log.eventsByRun.keys = ["a"]) :
    "a" ∉ (run (ProjectionService.step inMemoryLog {}) s (crowd maxRetainedRuns)).log.eventsByRun.keys := by
  obtain ⟨n, hn⟩ : ∃ n, maxRetainedRuns = n + 1 := ⟨4999, rfl⟩
  have hkeys := keys_run_crowd hs (n := n) (by omega)
  obtain ⟨hnew, hsize⟩ := crowd_fresh hkeys
  rw [hn, run_crowd_succ, keys_step_crowd hnew, hsize, if_neg (by omega), hkeys]
  simp only [List.cons_append, List.tail_cons, List.mem_append, List.mem_map, List.mem_singleton, not_or,
    not_exists, not_and]
  exact ⟨fun i _ he => crowdName_ne i he, fun he => crowdName_ne n he.symm⟩

/-- A call that finds nothing new returns the cached projection. -/
theorem run_get_unseen {s : InMemoryService} (hwaiting : s.waiting = []) (hholder : s.holder "a" = none)
    (hlog : s.log.eventsOf "a" = []) :
    let moves : List ProjectionService.Move := [.invoke "a" .get, .acquire 0, .load "a", .finish "a"]
    let s' := run (ProjectionService.step inMemoryLog {}) s moves
    s'.log = s.log ∧ ∃ c ∈ s'.completed, c.runId = "a" ∧ c.log = [] ∧ c.request = .get ∧
      c.projection = s.cached "a" := by
  obtain ⟨log, cache, waiting, holder, reached, completed⟩ := s
  obtain rfl : waiting = [] := hwaiting
  have hevents : log.eventsOf "a" = [] := hlog
  have hload : ∀ offset, (inMemoryLog.view log).load "a" offset = [] := by
    intro offset
    show (log.eventsOf "a").filter _ = []
    rw [hevents]
    rfl
  have hfree : holder "a" = none := hholder
  simp only [run_cons, run_nil, ProjectionService.step, ProjectionService.acquire, List.nil_append,
    List.getElem?_cons_zero, hfree, ProjectionService.load, Function.update_self, hload,
    ProjectionService.events, OffsetLog.all, ProjectionService.finish, replayUnseen, ProjectionService.complete, ProjectionService.release]
  exact ⟨trivial, _, List.mem_append_right _ (List.mem_singleton_self _), rfl, rfl, rfl, rfl⟩

/-- A log that starts to count at zero, and to which nothing is appended. -/
def countedFromZero : OffsetLog where
  eventsOf := fun _ => [factEvent "a" "run.ready" 0 none]
  increasing := fun _ => List.pairwise_singleton _ _

def unchangedLog : EventLogPort OffsetLog where
  view := id
  appendActionCommit := fun log _ => log

/-- A run is ready and read, then pushed out of the log, then read again: the service
still says ready, the log has nothing of the run, and a fresh service says created. And an event
at offset zero is never asked for. -/
theorem evicted_run_not_rebuildable :
    (let moves : List ProjectionService.Move :=
      [.append (commitOf "a" "run.ready"), .invoke "a" .get, .acquire 0, .load "a", .finish "a"] ++
        (crowd maxRetainedRuns ++ [.invoke "a" .get, .acquire 0, .load "a", .finish "a"])
    let s := run (ProjectionService.step inMemoryLog {}) (.fresh .empty) moves
    ∃ c ∈ s.completed, c.request = .get ∧ c.projection.lifecycleState = .ready ∧
      c.projection ≠ projectionThrough c.runId (s.events inMemoryLog c.runId) c.bound ∧
      replayUnseen {} none (defaultProjection c.runId)
        (c.log.filter (fun e => 0 < e.commitOffset)) ≠ .ok c.projection) ∧
    (let s := run (ProjectionService.step unchangedLog {}) (.fresh countedFromZero)
      [.invoke "a" .get, .acquire 0, .load "a", .finish "a"]
    ∃ c ∈ s.completed, c.request = .get ∧ c.projection.lifecycleState = .created ∧
      (projectionThrough c.runId (countedFromZero.eventsOf c.runId) c.bound).lifecycleState = .ready) := by
  refine ⟨?_, _, List.mem_singleton.mpr rfl, rfl, rfl, by decide⟩
  intro moves s
  let s₁ := run (ProjectionService.step inMemoryLog {}) (.fresh .empty)
    [.append (commitOf "a" "run.ready"), .invoke "a" .get, .acquire 0, .load "a", .finish "a"]
  have hkeys : s₁.log.eventsByRun.keys = ["a"] := by rfl
  have hready : (s₁.cached "a").lifecycleState = .ready := by rfl
  obtain ⟨log, hlog⟩ := run_crowd s₁ maxRetainedRuns
  have hgone : log.eventsOf "a" = [] := by
    have hnot := not_mem_keys_run_crowd hkeys
    rw [hlog] at hnot
    exact InMemoryKernelRuntimeEventLog.eventsOf_of_not_mem hnot
  have hs : s = run (ProjectionService.step inMemoryLog {}) { s₁ with log := log }
      [.invoke "a" .get, .acquire 0, .load "a", .finish "a"] := by
    show run (ProjectionService.step inMemoryLog {}) _ (_ ++ (_ ++ _)) = _
    rw [run_append, run_append, hlog]
  obtain ⟨hsame, c, hc, hrun, hnone, hget, hproj⟩ :=
    run_get_unseen (s := { s₁ with log := log }) (by rfl) (by rfl) hgone
  rw [← hs] at hsame hc
  have hstate : c.projection.lifecycleState = .ready := by rw [hproj]; exact hready
  refine ⟨c, hc, hget, hstate, ?_, ?_⟩
  · intro heq
    have hevents : s.events inMemoryLog c.runId = [] := by
      rw [ProjectionService.events, hsame, hrun, all_inMemoryLog]
      exact hgone
    rw [hevents] at heq
    rw [heq] at hstate
    cases hstate
  · intro heq
    rw [hnone, hrun] at heq
    have hdefault : defaultProjection "a" = c.projection := Except.ok.inj heq
    rw [← hdefault] at hstate
    cases hstate

end AgentKernel.Projection
