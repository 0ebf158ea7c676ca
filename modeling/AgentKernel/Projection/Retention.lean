import AgentKernel.Projection.Service

/-! What is left of a run that the log has dropped.

The log drops the events of a run when it is told to clean up and when it retains too many
runs, and the counter of the run's offsets with them; the projection of the run stays, with
the offset it had. So a run that is appended to afterwards uses its offsets again, and a
projection that was not up to date never will be (`restarted_offsets`). Offsets are not
reused and no event is lost to a reader exactly when no run goes on after it was dropped and
no projection is read that was behind when its run was dropped (`retention_iff`). -/
namespace AgentKernel.Projection
open Lib Events

/-! ### The log, the projections and their history -/

/-- A projection that `get` returned, and all events its run had been given then. -/
structure Reading where
  runId : String
  history : List RuntimeEvent
  projection : RunProjection

/-- A log and a service over it, with all events the log was ever given for each run, at the
offsets it gave them, and what was read so far. -/
structure Retention where
  log : InMemoryKernelRuntimeEventLog := .empty
  projectionByRun : Dict String RunProjection := Dict.empty
  history : String → List RuntimeEvent := fun _ => []
  readings : List Reading := []

inductive RetentionCall where
  | appendActionCommit (commit : ActionCommit)
  | cleanupCompletedRun (runId : String)
  | project (runId : String) (request : Request)

namespace Retention

def cached (s : Retention) (runId : String) : RunProjection :=
  (s.projectionByRun.get? runId).getD (defaultProjection runId)

/-- `catch_up`, `get` and `readiness` up to what they answer: no other call comes between. -/
def projected (s : Retention) (runId : String) (request : Request) : Except PyError RunProjection :=
  replayUnseen {} request.through (s.cached runId)
    (s.log.load runId (s.cached runId).projectedOffset)

/-- The projection is stored, and noted if the call asked for everything. -/
def store (s : Retention) (runId : String) (request : Request) (p : RunProjection) : Retention :=
  { s with
    projectionByRun := s.projectionByRun.set runId p
    readings :=
      if request.through = none then s.readings ++ [⟨runId, s.history runId, p⟩] else s.readings }

/-- A commit with events is appended to the log. -/
def append (s : Retention) (commit : ActionCommit) : Retention :=
  { s with
    log := (s.log.record commit).evict
    history := Function.update s.history commit.runId
      (s.history commit.runId ++ normalizedFrom (s.log.nextOffset commit.runId) commit.events) }

def next (s : Retention) : RetentionCall → Retention
  | .appendActionCommit commit => if commit.events = [] then s else s.append commit
  | .cleanupCompletedRun runId => { s with log := s.log.cleanupCompletedRun runId }
  | .project runId request =>
    match s.projected runId request with
    | .ok p => s.store runId request p
    | .error _ => s

/-! ### What is asked of them -/

/-- The fold of all events of a run that are no diagnostics. -/
def foldOfAll (runId : String) (history : List RuntimeEvent) : RunProjection :=
  foldProjection runId (history.filter (fun e => e.eventAuthority ≠ .derivedDiagnostic))

/-- The offsets of a run only ever grow, and what was read reflects every event. -/
structure Lossless (s : Retention) : Prop where
  increasing : ∀ runId, (s.history runId).Pairwise (fun e e' => e.commitOffset < e'.commitOffset)
  reflected : ∀ r ∈ s.readings, r.projection = foldOfAll r.runId r.history

/-- The run had events, and the log has none of them. -/
def Dropped (s : Retention) (runId : String) : Prop := s.history runId ≠ [] ∧ s.log.eventsOf runId = []

/-- A dropped run is not appended to, and not read while events that are no diagnostics lie
beyond its projection. -/
def Retained (s : Retention) : RetentionCall → Prop
  | .appendActionCommit commit => commit.events ≠ [] → ¬ s.Dropped commit.runId
  | .cleanupCompletedRun _ => True
  | .project runId request => request.through = none → s.Dropped runId →
    ∀ e ∈ s.history runId, e.eventAuthority ≠ .derivedDiagnostic →
      e.commitOffset ≤ (s.cached runId).projectedOffset

/-- The log holds a run whole or not at all, and its projection replays a part of it. -/
structure Kept (s : Retention) (runId : String) : Prop where
  whole : s.log.eventsOf runId = s.history runId ∨ s.log.eventsOf runId = []
  indexed : Indexed RuntimeEvent.commitOffset (s.history runId)
  replayed : ∃ reached, 0 ≤ reached ∧
    reached ≤ lastIndex RuntimeEvent.commitOffset (s.history runId) ∧
    s.cached runId = (replayer runId).replay (s.history runId) reached

/-! ### The log -/

variable {s : Retention}

theorem eventsOf_cleanup (log : InMemoryKernelRuntimeEventLog) (dropped runId : String) :
    (log.cleanupCompletedRun dropped).eventsOf runId =
      if runId = dropped then [] else log.eventsOf runId := by
  unfold InMemoryKernelRuntimeEventLog.eventsOf InMemoryKernelRuntimeEventLog.cleanupCompletedRun
  rw [Dict.get?_erase]
  split <;> rfl

theorem eventsOf_evict (log : InMemoryKernelRuntimeEventLog) (runId : String) :
    log.evict.eventsOf runId = log.eventsOf runId ∨ log.evict.eventsOf runId = [] := by
  unfold InMemoryKernelRuntimeEventLog.evict
  split
  · split
    · rw [eventsOf_cleanup]
      split
      · exact .inr rfl
      · exact .inl rfl
    · exact .inl rfl
  · exact .inl rfl

/-- A run that is dropped stays as it was for its projection. -/
theorem Kept.of_eventsOf {runId : String} (h : s.Kept runId) {log : InMemoryKernelRuntimeEventLog}
    (hlog : log.eventsOf runId = s.log.eventsOf runId ∨ log.eventsOf runId = []) :
    Kept { s with log := log } runId := by
  refine ⟨?_, h.indexed, h.replayed⟩
  rcases hlog with hsame | hdropped
  · show log.eventsOf runId = _ ∨ log.eventsOf runId = []
    rw [hsame]
    exact h.whole
  · exact .inr hdropped

/-- A run that is not dropped is in the log as it is in its history. -/
theorem Kept.eventsOf_eq {runId : String} (h : s.Kept runId) (hthere : ¬ s.Dropped runId) :
    s.log.eventsOf runId = s.history runId := by
  rcases h.whole with hwhole | hnone
  · exact hwhole
  · by_cases hempty : s.history runId = []
    · rw [hnone, hempty]
    · exact absurd ⟨hempty, hnone⟩ hthere

/-! ### Appending -/

theorem history_append (commit : ActionCommit) (runId : String) :
    (s.append commit).history runId =
      if runId = commit.runId then
        s.history runId ++ normalizedFrom (s.log.nextOffset runId) commit.events
      else s.history runId := by
  unfold append
  simp only [Function.update_apply]
  split
  · rename_i heq
    rw [heq]
  · rfl

theorem kept_append (h : ∀ runId, s.Kept runId) {commit : ActionCommit} (hthere : ¬ s.Dropped commit.runId)
    (runId : String) : (s.append commit).Kept runId := by
  have hevicted := eventsOf_evict (s.log.record commit) runId
  have hrecorded := InMemoryKernelRuntimeEventLog.eventsOf_record s.log commit runId
  by_cases hrun : runId = commit.runId
  · subst hrun
    have hsame := (h commit.runId).eventsOf_eq hthere
    have hhistory : (s.append commit).history commit.runId =
        (s.log.record commit).eventsOf commit.runId := by
      rw [history_append, if_pos rfl, hrecorded, if_pos rfl, hsame]
    obtain ⟨reached, hpos, hend, hcached⟩ := (h commit.runId).replayed
    have hlater : ∀ e ∈ normalizedFrom (s.log.nextOffset commit.runId) commit.events,
        lastIndex RuntimeEvent.commitOffset (s.history commit.runId) < e.commitOffset := by
      intro e he
      rw [← hsame]
      exact InMemoryKernelRuntimeEventLog.lt_of_mem_new he
    refine ⟨?_, ?_, reached, hpos, ?_, ?_⟩
    · rw [hhistory]
      exact hevicted
    · rw [hhistory]
      exact (s.log.record commit).indexed commit.runId
    · rw [history_append, if_pos rfl]
      exact Int.le_trans hend (lastIndex_append_le hlater)
    · rw [history_append, if_pos rfl]
      refine hcached.trans ((replayer commit.runId).replay_append (fun e he => ?_)).symm
      exact Int.lt_of_le_of_lt hend (hlater e he)
  · have hhistory : (s.append commit).history runId = s.history runId := by
      rw [history_append, if_neg hrun]
    rw [if_neg hrun] at hrecorded
    rw [hrecorded] at hevicted
    have hkept := (h runId).of_eventsOf hevicted
    refine ⟨?_, ?_, ?_⟩
    · rw [hhistory]
      exact hkept.whole
    · rw [hhistory]
      exact hkept.indexed
    · rw [hhistory]
      exact hkept.replayed

/-- A run that is appended to after it was dropped starts at the first offset again. -/
theorem not_increasing_append {commit : ActionCommit} (h : s.Kept commit.runId) (hne : commit.events ≠ [])
    (hdropped : s.Dropped commit.runId) :
    ¬ ((s.append commit).history commit.runId).Pairwise
      (fun e e' => e.commitOffset < e'.commitOffset) := by
  obtain ⟨hhistory, hnone⟩ := hdropped
  intro hincreasing
  rw [history_append, if_pos rfl] at hincreasing
  obtain ⟨old, rest, hold⟩ := List.exists_cons_of_ne_nil hhistory
  obtain ⟨new, rest', hnew⟩ := List.exists_cons_of_ne_nil hne
  have hmem : old ∈ s.history commit.runId := by
    rw [hold]
    exact List.mem_cons_self
  have hnext : s.log.nextOffset commit.runId = 1 := by
    have hcounted : s.log.nextOffset commit.runId = (s.log.eventsOf commit.runId).length + 1 :=
      s.log.counted commit.runId
    rw [hcounted, hnone]
    rfl
  have hfirst : normalized new 1 ∈ normalizedFrom (s.log.nextOffset commit.runId) commit.events := by
    rw [hnext, hnew, normalizedFrom]
    exact List.mem_cons_self
  have hless : old.commitOffset < 1 :=
    (List.pairwise_append.mp hincreasing).2.2 old hmem (normalized new 1) hfirst
  have hpositive := h.indexed.positive old hmem
  omega

/-! ### Projecting -/

theorem foldOfAll_eq_replay {runId : String} {history : List RuntimeEvent}
    (h : Indexed RuntimeEvent.commitOffset history) :
    foldOfAll runId history =
      (replayer runId).replay history (lastIndex RuntimeEvent.commitOffset history) := by
  have hall := (replayer runId).replay_lastIndex h
  refine Eq.trans ?_ hall.symm
  unfold foldOfAll foldProjection
  congr 2
  funext e
  simp [replayer, validateProjectionAuthorityInput]

/-- A call on a run that is in the log brings its projection forward, to the end if the call
asks for everything. -/
theorem projected_whole {runId : String} (h : s.Kept runId) (hthere : ¬ s.Dropped runId) (request : Request) :
    ∃ reached, 0 ≤ reached ∧ reached ≤ lastIndex RuntimeEvent.commitOffset (s.history runId) ∧
      s.projected runId request = .ok ((replayer runId).replay (s.history runId) reached) ∧
      (request.through = none → reached = lastIndex RuntimeEvent.commitOffset (s.history runId)) := by
  obtain ⟨reached, hpos, hend, hresumes, hwhole⟩ :=
    Replays.replayUnseen h.replayed h.indexed request
  refine ⟨reached, hpos, hend, ?_, hwhole⟩
  rw [projected, InMemoryKernelRuntimeEventLog.load, h.eventsOf_eq hthere]
  exact hresumes

/-- A call on a run that is not in the log returns the projection as it is. -/
theorem projected_none {runId : String} (hnone : s.log.eventsOf runId = []) (request : Request) :
    s.projected runId request = .ok (s.cached runId) := by
  rw [projected, InMemoryKernelRuntimeEventLog.load, hnone]
  rfl

/-- **What a call returns**: a replay of a part of the run. -/
theorem projected_replay {runId : String} (h : s.Kept runId) (request : Request) :
    ∃ reached, 0 ≤ reached ∧ reached ≤ lastIndex RuntimeEvent.commitOffset (s.history runId) ∧
      s.projected runId request = .ok ((replayer runId).replay (s.history runId) reached) := by
  by_cases hdropped : s.Dropped runId
  · obtain ⟨reached, hpos, hend, hcached⟩ := h.replayed
    exact ⟨reached, hpos, hend, hcached ▸ projected_none hdropped.2 request⟩
  · obtain ⟨reached, hpos, hend, hprojected, _⟩ := projected_whole h hdropped request
    exact ⟨reached, hpos, hend, hprojected⟩

/-- **A reading is complete exactly when nothing lies beyond the projection of a run that was
dropped.** -/
theorem projected_complete_iff {runId : String} (h : s.Kept runId) {request : Request}
    (hthrough : request.through = none) :
    s.projected runId request = .ok (foldOfAll runId (s.history runId)) ↔
      s.Retained (.project runId request) := by
  rw [foldOfAll_eq_replay h.indexed]
  by_cases hdropped : s.Dropped runId
  · obtain ⟨reached, hpos, hend, hcached⟩ := h.replayed
    have hcomplete : (replayer runId).replay (s.history runId) reached =
          (replayer runId).replay (s.history runId) (lastIndex RuntimeEvent.commitOffset (s.history runId)) ↔
        ∀ e ∈ s.history runId, (replayer runId).keep e = true →
          e.commitOffset ≤ ((replayer runId).replay (s.history runId) reached).projectedOffset :=
      (replayer runId).replay_complete_iff h.indexed hpos
    rw [projected_none hdropped.2, Except.ok.injEq, hcached, hcomplete, ← hcached]
    simp only [Retained, hthrough, hdropped, forall_const]
    refine forall₂_congr (fun e _ => imp_congr ?_ Iff.rfl)
    simp [replayer, validateProjectionAuthorityInput]
  · obtain ⟨reached, _, _, hprojected, hlast⟩ := projected_whole h hdropped request
    rw [hprojected, hlast hthrough]
    exact iff_of_true rfl (fun _ hdrop => absurd hdrop hdropped)

theorem kept_store {p : RunProjection} {runId : String} (h : ∀ runId, s.Kept runId) {reached : Int}
    (hpos : 0 ≤ reached) (hend : reached ≤ lastIndex RuntimeEvent.commitOffset (s.history runId))
    (hp : p = (replayer runId).replay (s.history runId) reached) (request : Request) (runId' : String) :
    (s.store runId request p).Kept runId' := by
  refine ⟨(h runId').whole, (h runId').indexed, ?_⟩
  have hcached : (s.store runId request p).cached runId' = if runId' = runId then p else s.cached runId' := by
    unfold cached store
    rw [Dict.get?_set]
    split <;> rfl
  by_cases hrun : runId' = runId
  · subst hrun
    exact ⟨reached, hpos, hend, by rw [hcached, if_pos rfl]; exact hp⟩
  · obtain ⟨reached', hpos', hend', hold⟩ := (h runId').replayed
    exact ⟨reached', hpos', hend', by rw [hcached, if_neg hrun]; exact hold⟩

/-! ### One call -/

theorem next_append {commit : ActionCommit} (hne : commit.events ≠ []) :
    s.next (.appendActionCommit commit) = s.append commit := if_neg hne

theorem next_append_nil {commit : ActionCommit} (h : commit.events = []) :
    s.next (.appendActionCommit commit) = s := if_pos h

theorem lossless_append_iff (h : s.Lossless) (hk : ∀ runId, s.Kept runId) {commit : ActionCommit}
    (hne : commit.events ≠ []) : (s.append commit).Lossless ↔ ¬ s.Dropped commit.runId := by
  constructor
  · intro hnext hdropped
    exact not_increasing_append (hk commit.runId) hne hdropped (hnext.increasing commit.runId)
  · intro hthere
    exact ⟨fun runId => (kept_append hk hthere runId).indexed.sorted, h.reflected⟩

theorem lossless_store_iff (h : s.Lossless) (runId : String) (request : Request) (p : RunProjection) :
    (s.store runId request p).Lossless ↔
      (request.through = none → p = foldOfAll runId (s.history runId)) := by
  constructor
  · intro hnext hthrough
    refine hnext.reflected ⟨runId, s.history runId, p⟩ ?_
    simp [store, hthrough]
  · intro hp
    refine ⟨h.increasing, fun r hr => ?_⟩
    by_cases hthrough : request.through = none
    · simp only [store, hthrough, if_true] at hr
      rcases List.mem_append.mp hr with hold | hlast
      · exact h.reflected r hold
      · rw [List.mem_singleton.mp hlast]
        exact hp hthrough
    · simp only [store, hthrough, if_false] at hr
      exact h.reflected r hr

/-- **A call loses nothing exactly when it respects what was dropped.** -/
theorem lossless_next_iff (h : s.Lossless) (hk : ∀ runId, s.Kept runId) (call : RetentionCall) :
    (s.next call).Lossless ↔ s.Retained call := by
  cases call with
  | appendActionCommit commit =>
    by_cases hne : commit.events = []
    · rw [next_append_nil hne]
      exact iff_of_true h (fun hsome => absurd hne hsome)
    · rw [next_append hne, lossless_append_iff h hk hne]
      exact ⟨fun hthere _ => hthere, fun hretained => hretained hne⟩
  | cleanupCompletedRun runId => exact iff_of_true ⟨h.increasing, h.reflected⟩ trivial
  | project runId request =>
    obtain ⟨reached, _, _, hprojected⟩ := projected_replay (hk runId) request
    simp only [next, hprojected]
    rw [lossless_store_iff h]
    by_cases hthrough : request.through = none
    · rw [← projected_complete_iff (hk runId) hthrough, hprojected, Except.ok.injEq]
      simp only [hthrough, forall_const]
    · exact iff_of_true (fun hnone => absurd hnone hthrough) (fun hnone => absurd hnone hthrough)

theorem kept_next (hk : ∀ runId, s.Kept runId) {call : RetentionCall} (hretained : s.Retained call)
    (runId : String) : (s.next call).Kept runId := by
  cases call with
  | appendActionCommit commit =>
    by_cases hne : commit.events = []
    · rw [next_append_nil hne]
      exact hk runId
    · rw [next_append hne]
      exact kept_append hk (hretained hne) runId
  | cleanupCompletedRun dropped =>
    refine (hk runId).of_eventsOf ?_
    rw [eventsOf_cleanup]
    split
    · exact .inr rfl
    · exact .inl rfl
  | project asked request =>
    obtain ⟨reached, hpos, hend, hprojected⟩ := projected_replay (hk asked) request
    simp only [next, hprojected]
    exact kept_store hk hpos hend rfl request runId

theorem kept_fresh (runId : String) : Kept {} runId :=
  ⟨.inr rfl, Indexed.nil, 0, Int.le_refl 0, Int.le_refl 0, rfl⟩

end Retention

/-- **When nothing is lost.** For every sequence of appends, cleanups and calls of the
service, over any number of runs, the offsets of every run only grow and every reading
reflects all events of its run exactly when no call goes on with a run that was dropped. -/
theorem retention_iff (calls : List RetentionCall) :
    (∀ pre, pre <+: calls → (run Retention.next {} pre).Lossless) ↔
      Along Retention.next Retention.Retained {} calls := by
  refine forall_prefix_iff_along (J := fun s : Retention => s.Lossless ∧ ∀ runId, s.Kept runId)
    (A := fun _ _ => True) (fun _ h => h.1) (fun s call _ h => Retention.lossless_next_iff h.1 h.2 call)
    (fun s call _ h hretained => ?_) ⟨?_, Retention.kept_fresh⟩ (.of_forall (fun _ _ => trivial) _ calls)
  · exact ⟨(Retention.lossless_next_iff h.1 h.2 call).mpr hretained, Retention.kept_next h.2 hretained⟩
  · exact ⟨fun _ => List.Pairwise.nil, fun _ h => absurd h List.not_mem_nil⟩

namespace Sample

/-- A run with two events is read, cleaned up and appended to. -/
def restarted : List RetentionCall :=
  [.appendActionCommit (commitOf "a" "run.ready"), .appendActionCommit (commitOf "a" "run.dispatching"),
    .project "a" .get, .cleanupCompletedRun "a", .appendActionCommit (commitOf "a" "run.aborted"),
    .project "a" .get]

end Sample

/-- The first offset is used again, and the abort is not seen. -/
theorem restarted_offsets :
    ((run Retention.next {} Sample.restarted).history "a").map RuntimeEvent.commitOffset = [1, 2, 1] ∧
    ((run Retention.next {} Sample.restarted).cached "a").lifecycleState = .dispatching ∧
    ¬ (run Retention.next {} Sample.restarted).Lossless := by
  have hoffsets : ((run Retention.next {} Sample.restarted).history "a").map RuntimeEvent.commitOffset =
      [1, 2, 1] := by decide +kernel
  refine ⟨hoffsets, by decide +kernel, fun h => ?_⟩
  have hsorted := List.pairwise_map.mpr (h.increasing "a")
  rw [hoffsets] at hsorted
  exact absurd hsorted (by decide)

end AgentKernel.Projection
