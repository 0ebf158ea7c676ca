import AgentKernel.Projection.Service
import AgentKernel.Persistence.ProjectionCache

/-! The projection service over a snapshot cache.

A process that starts again has no projections in memory. Its service takes the snapshot of
a run the first time it is asked for the run, and goes on from there; every `catch_up` saves
what it returns. Beside it runs a service without a cache whose memory is, at every restart,
what was saved last. Both give the same answers, but that a `catch_up` whose projection the
cache refuses raises instead, and `get` always answers with the fold of the whole log
(`snapshot_caching_transparent`). -/
namespace AgentKernel.Projection
open Lib Persistence

/-! ### The event log -/

namespace OffsetLog

/-- The event is later than all of its run. -/
def Later (log : OffsetLog) (runId : String) (event : RuntimeEvent) : Prop :=
  ∀ e ∈ log.eventsOf runId, e.commitOffset < event.commitOffset

instance (log : OffsetLog) (runId : String) (event : RuntimeEvent) : Decidable (log.Later runId event) :=
  inferInstanceAs (Decidable (∀ e ∈ log.eventsOf runId, _))

/-- The event is added to its run, unless it would break the order. -/
def append (log : OffsetLog) (runId : String) (event : RuntimeEvent) : OffsetLog :=
  if later : log.Later runId event then
    { eventsOf := Function.update log.eventsOf runId (log.eventsOf runId ++ [event])
      increasing := by
        intro other
        by_cases h : other = runId
        · subst h
          rw [Function.update_self]
          refine List.pairwise_append.mpr ⟨log.increasing other, List.pairwise_singleton _ _, ?_⟩
          intro e he e' he'
          rw [List.mem_singleton.mp he']
          exact later e he
        · rw [Function.update_of_ne h]
          exact log.increasing other }
  else log

end OffsetLog

/-! ### The service in memory -/

/-- `_projection_by_run`. -/
abbrev Projections := Dict String RunProjection

namespace Projections

def projectionOf (stored : Projections) (runId : String) : RunProjection :=
  (stored.get? runId).getD (defaultProjection runId)

/-- The projection that a call computes. -/
def project (config : ProjectionConfig) (log : OffsetLog) (stored : Projections) (runId : String)
    (request : Request) : Except PyError RunProjection :=
  replayUnseen config request.through (stored.projectionOf runId)
    (log.load runId (stored.projectionOf runId).projectedOffset)

/-- The projection is stored, if there is one. -/
def keep (stored : Projections) (runId : String) : Except PyError RunProjection → Projections
  | .ok p => stored.set runId p
  | .error _ => stored

end Projections

/-- A call, the events its run had then, and what it returned or raised. -/
structure Answered where
  runId : String
  request : Request
  log : List RuntimeEvent
  result : Except PyError Answer

inductive CacheMove where
  | append (runId : String) (event : RuntimeEvent)
  | call (runId : String) (request : Request)
  | restart

/-! ### The service over the cache -/

/-- `InMemoryDecisionProjectionService` in a `CachedDecisionProjectionService`. -/
structure CachedService where
  log : OffsetLog
  inner : Projections := Dict.empty
  cache : ProjectionSnapshotCache := Dict.empty
  answers : List Answered := []

namespace CachedService

/-- `_maybe_seed`. -/
def maybeSeed (floatOf : List Char → String) (s : CachedService) (runId : String) :
    Except PyError Projections :=
  match s.inner.get? runId with
  | some _ => .ok s.inner
  | none => do
    match ← ProjectionSnapshotCache.load floatOf s.cache runId with
    | some cached => .ok (s.inner.set runId cached)
    | none => .ok s.inner

def answer (s : CachedService) (runId : String) (request : Request) (result : Except PyError Answer) :
    CachedService :=
  { s with answers := s.answers ++ [⟨runId, request, s.log.eventsOf runId, result⟩] }

/-- `catch_up` saves what it returns. -/
def save (s : CachedService) : Request → Except PyError RunProjection →
    ProjectionSnapshotCache × Except PyError RunProjection
  | .catchUp _, .ok p =>
    match s.cache.save p with
    | .ok cache => (cache, .ok p)
    | .error e => (s.cache, .error e)
  | _, result => (s.cache, result)

/-- `catch_up`, `get` and `readiness`. -/
def call (config : ProjectionConfig) (floatOf : List Char → String) (s : CachedService)
    (runId : String) (request : Request) : CachedService :=
  match s.maybeSeed floatOf runId with
  | .error e => s.answer runId request (.error e)
  | .ok inner =>
    let result := inner.project config s.log runId request
    let saved := s.save request result
    { s with inner := inner.keep runId result, cache := saved.1 }.answer runId request
      (request.answer <$> saved.2)

def next (config : ProjectionConfig) (floatOf : List Char → String) (s : CachedService) :
    CacheMove → CachedService
  | .append runId event => { s with log := s.log.append runId event }
  | .call runId request => s.call config floatOf runId request
  | .restart => { s with inner := Dict.empty }

end CachedService

/-! ### The service without a cache -/

/-- A service whose projections survive as they were last saved. -/
structure UncachedService where
  log : OffsetLog
  projectionByRun : Projections := Dict.empty
  saved : Projections := Dict.empty
  answers : List Answered := []

namespace UncachedService

/-- What is saved last once a call has returned. -/
def savedAfter (s : UncachedService) : Request → Except PyError RunProjection → Projections
  | .catchUp _, .ok p =>
    if ProjectionSnapshotCache.refusal p = none then s.saved.set p.runId p else s.saved
  | _, _ => s.saved

def call (config : ProjectionConfig) (s : UncachedService) (runId : String) (request : Request) :
    UncachedService :=
  let result := s.projectionByRun.project config s.log runId request
  { s with
    projectionByRun := s.projectionByRun.keep runId result
    saved := s.savedAfter request result
    answers := s.answers ++ [⟨runId, request, s.log.eventsOf runId, request.answer <$> result⟩] }

def next (config : ProjectionConfig) (s : UncachedService) : CacheMove → UncachedService
  | .append runId event => { s with log := s.log.append runId event }
  | .call runId request => s.call config runId request
  | .restart => { s with projectionByRun := s.saved }

end UncachedService

/-- What the call answers when its projection has to be saved: the error, if it is refused. -/
def Answered.throughCache (a : Answered) : Answered :=
  match a.request, a.result with
  | .catchUp _, .ok (.projection p) =>
    match ProjectionSnapshotCache.refusal p with
    | some e => { a with result := .error e }
    | none => a
  | _, _ => a

/-! ### The two services agree -/

/-- Every run has its own projection. -/
theorem replayUnseen_runId {config : ProjectionConfig} {through : Option Int} {p p' : RunProjection}
    {events : List RuntimeEvent} (h : replayUnseen config through p events = .ok p') :
    p'.runId = p.runId := by
  induction events generalizing p with
  | nil =>
    cases h
    rfl
  | cons e rest ih =>
    unfold replayUnseen at h
    split at h
    · cases h
      rfl
    · cases hmigrate : maybeMigrateEvent config e with
      | error err =>
        rw [hmigrate] at h
        cases h
      | ok e' =>
        rw [hmigrate] at h
        replace h : (if validateProjectionAuthorityInput e' config.rejectDerivedDiagnosticAuthorityInput
            then replayUnseen config through (applyProjectionEvent p e') rest
            else replayUnseen config through p rest) = .ok p' := h
        split at h
        · have hrest := ih h
          exact hrest
        · exact ih h

theorem project_runId {config : ProjectionConfig} {log : OffsetLog} {stored : Projections}
    (hkeyed : stored.Keyed RunProjection.runId) {runId : String} {request : Request} {p : RunProjection}
    (h : stored.project config log runId request = .ok p) : p.runId = runId := by
  rw [replayUnseen_runId h, Projections.projectionOf]
  cases hp : stored.get? runId with
  | none => rfl
  | some p => exact hkeyed.key_get hp

/-- What a call computes depends on its own run only. -/
theorem project_congr {config : ProjectionConfig} {log : OffsetLog} {stored stored' : Projections}
    {runId : String} (h : stored.get? runId = stored'.get? runId) (request : Request) :
    stored.project config log runId request = stored'.project config log runId request := by
  have hsame : stored.projectionOf runId = stored'.projectionOf runId := by
    rw [Projections.projectionOf, Projections.projectionOf, h]
  rw [Projections.project, Projections.project, hsame]

/-- The cached service is where the uncached one is: its cache holds what was saved last,
and its memory, or else the cache, what the other has in memory. -/
structure Agrees (floatOf : List Char → String) (c : CachedService) (u : UncachedService) : Prop where
  log : c.log = u.log
  answers : c.answers = u.answers.map Answered.throughCache
  keyed : u.projectionByRun.Keyed RunProjection.runId
  keyedSaved : u.saved.Keyed RunProjection.runId
  loads : ∀ runId, ProjectionSnapshotCache.load floatOf c.cache runId = .ok (u.saved.get? runId)
  seeds : ∀ runId, (c.inner.get? runId).or (u.saved.get? runId) = u.projectionByRun.get? runId

variable {floatOf : List Char → String} {c : CachedService} {u : UncachedService}

theorem agrees_start (floatOf : List Char → String) (log : OffsetLog) :
    Agrees floatOf { log := log } { log := log } where
  log := rfl
  answers := rfl
  keyed := Dict.keyed_empty _
  keyedSaved := Dict.keyed_empty _
  loads := fun _ => rfl
  seeds := fun _ => rfl

/-- Seeding puts the run where the uncached service has it. -/
theorem Agrees.maybeSeed (h : Agrees floatOf c u) (runId : String) :
    ∃ inner, c.maybeSeed floatOf runId = .ok inner ∧
      ∀ other, inner.get? other =
        if other = runId then u.projectionByRun.get? runId else c.inner.get? other := by
  have hseeds := h.seeds runId
  unfold CachedService.maybeSeed
  cases hinner : c.inner.get? runId with
  | some p =>
    rw [hinner] at hseeds
    refine ⟨c.inner, rfl, fun other => ?_⟩
    by_cases hother : other = runId
    · rw [if_pos hother, hother, hinner]
      exact hseeds
    · rw [if_neg hother]
  | none =>
    rw [hinner, Option.none_or] at hseeds
    rw [h.loads runId, hseeds]
    cases hstored : u.projectionByRun.get? runId with
    | none =>
      refine ⟨c.inner, rfl, fun other => ?_⟩
      by_cases hother : other = runId
      · rw [if_pos hother, hother, hinner]
      · rw [if_neg hother]
    | some p =>
      refine ⟨c.inner.set runId p, rfl, fun other => ?_⟩
      rw [Dict.get?_set]

theorem get?_keep (stored : Projections) (runId other : String) (result : Except PyError RunProjection) :
    (stored.keep runId result).get? other =
      if other = runId then (match result with
        | .ok p => some p
        | .error _ => stored.get? runId)
      else stored.get? other := by
  cases result with
  | ok p => exact Dict.get?_set ..
  | error e =>
    by_cases h : other = runId
    · rw [if_pos h, h]
      rfl
    · rw [if_neg h]
      rfl

/-- A `catch_up` whose projection is refused. -/
theorem save_catchUp_refused {p : RunProjection} {e : PyError} (t : Int)
    (h : ProjectionSnapshotCache.refusal p = some e) :
    c.save (.catchUp t) (.ok p) = (c.cache, .error e) ∧
      u.savedAfter (.catchUp t) (.ok p) = u.saved := by
  constructor
  · show (match ProjectionSnapshotCache.save c.cache p with
      | .ok cache => (cache, Except.ok p)
      | .error e => (c.cache, Except.error e)) = _
    rw [save_refused c.cache h]
  · show (if ProjectionSnapshotCache.refusal p = none then u.saved.set p.runId p else u.saved) = _
    rw [if_neg (by rw [h]; exact Option.some_ne_none e)]

/-- A `catch_up` whose projection is saved. -/
theorem save_catchUp_saved {p : RunProjection} {cache : ProjectionSnapshotCache} (t : Int)
    (hsave : ProjectionSnapshotCache.save c.cache p = .ok cache)
    (h : ProjectionSnapshotCache.refusal p = none) :
    c.save (.catchUp t) (.ok p) = (cache, .ok p) ∧
      u.savedAfter (.catchUp t) (.ok p) = u.saved.set p.runId p := by
  constructor
  · show (match ProjectionSnapshotCache.save c.cache p with
      | .ok cache => (cache, Except.ok p)
      | .error e => (c.cache, Except.error e)) = _
    rw [hsave]
  · exact if_pos h

theorem throughCache_catchUp (runId : String) (t : Int) (log : List RuntimeEvent) (p : RunProjection) :
    Answered.throughCache ⟨runId, .catchUp t, log, .ok (.projection p)⟩ =
      match ProjectionSnapshotCache.refusal p with
      | some e => ⟨runId, .catchUp t, log, .error e⟩
      | none => ⟨runId, .catchUp t, log, .ok (.projection p)⟩ := rfl

/-- Saving agrees: with what is saved last, and with what the call answers. -/
theorem Agrees.save (h : Agrees floatOf c u) (runId : String) (log : List RuntimeEvent) (request : Request)
    (result : Except PyError RunProjection) :
    (∀ other, ProjectionSnapshotCache.load floatOf (c.save request result).1 other =
      .ok ((u.savedAfter request result).get? other)) ∧
    (⟨runId, request, log, request.answer <$> (c.save request result).2⟩ : Answered) =
      Answered.throughCache ⟨runId, request, log, request.answer <$> result⟩ := by
  cases request with
  | get => cases result <;> exact ⟨h.loads, rfl⟩
  | readiness n => cases result <;> exact ⟨h.loads, rfl⟩
  | catchUp t =>
    cases result with
    | error e => exact ⟨h.loads, rfl⟩
    | ok p =>
      have hanswer := throughCache_catchUp runId t log p
      cases hrefusal : ProjectionSnapshotCache.refusal p with
      | some e =>
        obtain ⟨hcached, hsaved⟩ := save_catchUp_refused (c := c) (u := u) t hrefusal
        rw [hcached, hsaved]
        rw [hrefusal] at hanswer
        exact ⟨h.loads, hanswer.symm⟩
      | none =>
        obtain ⟨cache, hsave, hload⟩ := load_save floatOf c.cache hrefusal
        obtain ⟨hcached, hsaved⟩ := save_catchUp_saved (c := c) (u := u) t hsave hrefusal
        rw [hcached, hsaved]
        rw [hrefusal] at hanswer
        refine ⟨fun other => ?_, hanswer.symm⟩
        rw [hload, Dict.get?_set]
        split
        · rfl
        · exact h.loads other

/-- A call that raised saves nothing. -/
theorem savedAfter_error (request : Request) (e : PyError) :
    u.savedAfter request (.error e) = u.saved := by
  cases request <;> rfl

/-- A call saves under its own run. -/
theorem get?_savedAfter {runId : String} {request : Request} {result : Except PyError RunProjection}
    (hname : ∀ p, result = .ok p → p.runId = runId) {other : String} (hother : other ≠ runId) :
    (u.savedAfter request result).get? other = u.saved.get? other := by
  unfold UncachedService.savedAfter
  split
  · rename_i t p
    split
    · rw [Dict.get?_set, hname p rfl, if_neg hother]
    · rfl
  · rfl

theorem Agrees.call (config : ProjectionConfig) (h : Agrees floatOf c u) (runId : String)
    (request : Request) : Agrees floatOf (c.call config floatOf runId request) (u.call config runId request) := by
  obtain ⟨inner, hseed, hinner⟩ := h.maybeSeed runId
  have hsame : inner.project config c.log runId request =
      u.projectionByRun.project config u.log runId request := by
    rw [h.log]
    exact project_congr (by rw [hinner, if_pos rfl]) request
  unfold CachedService.call UncachedService.call
  simp only [hseed, hsame]
  have hname : ∀ p, u.projectionByRun.project config u.log runId request = .ok p → p.runId = runId :=
    fun p hp => project_runId h.keyed hp
  generalize u.projectionByRun.project config u.log runId request = result at hname ⊢
  obtain ⟨hloads, hanswer⟩ := h.save runId (c.log.eventsOf runId) request result
  refine ⟨h.log, ?_, ?_, ?_, hloads, fun other => ?_⟩
  · show c.answers ++ [_] = (u.answers ++ [_]).map Answered.throughCache
    rw [List.map_append, h.answers, hanswer, h.log]
    rfl
  · cases result with
    | error e => exact h.keyed
    | ok p => exact h.keyed.set (hname p rfl)
  · show (u.savedAfter request result).Keyed RunProjection.runId
    unfold UncachedService.savedAfter
    split
    · split
      · exact h.keyedSaved.set rfl
      · exact h.keyedSaved
    · exact h.keyedSaved
  · show ((inner.keep runId result).get? other).or ((u.savedAfter request result).get? other) =
      (u.projectionByRun.keep runId result).get? other
    rw [get?_keep, get?_keep]
    by_cases hother : other = runId
    · rw [if_pos hother, if_pos hother, hother]
      cases result with
      | ok p => rfl
      | error e =>
        -- Nothing was stored: the memory is what the seed made it.
        have hseeds := h.seeds runId
        rw [savedAfter_error]
        show (inner.get? runId).or (u.saved.get? runId) = u.projectionByRun.get? runId
        rw [hinner, if_pos rfl]
        cases hstored : u.projectionByRun.get? runId with
        | some p => rfl
        | none =>
          rw [hstored] at hseeds
          exact (Option.or_eq_none_iff.mp hseeds).2
    · rw [if_neg hother, if_neg hother, hinner, if_neg hother, get?_savedAfter hname hother]
      exact h.seeds other

/-- **One move** keeps the services in agreement. -/
theorem Agrees.next (config : ProjectionConfig) (h : Agrees floatOf c u) (move : CacheMove) :
    Agrees floatOf (c.next config floatOf move) (u.next config move) := by
  cases move with
  | append runId event =>
    refine ⟨?_, h.answers, h.keyed, h.keyedSaved, h.loads, h.seeds⟩
    show c.log.append runId event = u.log.append runId event
    rw [h.log]
  | call runId request => exact h.call config runId request
  | restart => exact ⟨h.log, h.answers, h.keyedSaved, h.keyedSaved, h.loads, fun runId => rfl⟩

theorem Agrees.run (config : ProjectionConfig) (h : Agrees floatOf c u) (moves : List CacheMove) :
    Agrees floatOf (run (CachedService.next config floatOf) c moves)
      (Lib.run (UncachedService.next config) u moves) := by
  induction moves generalizing c u with
  | nil => exact h
  | cons move rest ih => exact ih (h.next config move)

/-! ### What is stored replays the log -/

namespace OffsetLog

variable (log : OffsetLog)

/-- An append adds at most one later event at the end. -/
theorem all_append (runId other : String) (event : RuntimeEvent) :
    ∃ more, (log.append runId event).all other = log.all other ++ more ∧
      ∀ e ∈ more, lastIndex RuntimeEvent.commitOffset (log.all other) < e.commitOffset := by
  have hsame : ∃ more, log.all other = log.all other ++ more ∧
      ∀ e ∈ more, lastIndex RuntimeEvent.commitOffset (log.all other) < e.commitOffset :=
    ⟨[], (List.append_nil _).symm, fun _ he => nomatch he⟩
  unfold append
  split
  · rename_i hlater
    by_cases hother : other = runId
    · subst hother
      refine ⟨[event].filter (fun e => 0 < e.commitOffset), ?_, fun e he => ?_⟩
      · unfold all load
        show (Function.update log.eventsOf other _ other).filter _ = _
        rw [Function.update_self, List.filter_append]
      · obtain ⟨hmem, hpos⟩ := List.mem_filter.mp he
        rw [List.mem_singleton.mp hmem] at hpos ⊢
        unfold lastIndex
        cases hlast : (log.all other).getLast? with
        | none => simpa using hpos
        | some last => exact hlater last (List.mem_of_mem_filter (List.mem_of_getLast? hlast))
    · unfold all load
      show ∃ more, (Function.update log.eventsOf runId _ other).filter _ = _ ++ more ∧ _
      rw [Function.update_of_ne hother]
      exact hsame
  · exact hsame

end OffsetLog

/-- The fold of all events of a run that are no diagnostics, from the first offset on. -/
def foldOfRun (runId : String) (events : List RuntimeEvent) : RunProjection :=
  foldProjection runId (events.filter (fun e =>
    0 < e.commitOffset && decide (e.eventAuthority ≠ .derivedDiagnostic)))

theorem foldOfRun_eq_replay (log : OffsetLog) (runId : String) :
    foldOfRun runId (log.eventsOf runId) = (replayer runId).replay (log.all runId)
      (lastIndex RuntimeEvent.commitOffset (log.all runId)) := by
  have hall := (replayer runId).replay_lastIndex (log.indexed_all runId)
  refine Eq.trans ?_ hall.symm
  show run applyProjectionEvent _ _ = run applyProjectionEvent _ _
  unfold OffsetLog.all OffsetLog.load
  rw [List.filter_filter]
  congr 2
  funext e
  simp [replayer, validateProjectionAuthorityInput, Bool.and_comm]

/-- What is stored and saved replays a part of the log, and every `get` returned the whole. -/
structure Folded (u : UncachedService) : Prop where
  keyed : u.projectionByRun.Keyed RunProjection.runId
  stored : ∀ runId p, u.projectionByRun.get? runId = some p → Replays runId (u.log.all runId) p
  saved : ∀ runId p, u.saved.get? runId = some p → Replays runId (u.log.all runId) p
  keyedSaved : u.saved.Keyed RunProjection.runId
  answers : ∀ a ∈ u.answers, a.request = .get →
    a.result = .ok (.projection (foldOfRun a.runId a.log))

theorem folded_start (log : OffsetLog) : Folded { log := log } where
  keyed := Dict.keyed_empty _
  stored := fun _ _ h => nomatch h
  saved := fun _ _ h => nomatch h
  keyedSaved := Dict.keyed_empty _
  answers := fun _ h => nomatch h

/-- What a call projects: a replay of a part of the log, and of the whole of it for `get`. -/
theorem Folded.project (h : Folded u) (runId : String) (request : Request) :
    ∃ p, u.projectionByRun.project {} u.log runId request = .ok p ∧ p.runId = runId ∧
      Replays runId (u.log.all runId) p ∧
      (request = .get → p = foldOfRun runId (u.log.eventsOf runId)) := by
  have hreplays : Replays runId (u.log.all runId) (u.projectionByRun.projectionOf runId) := by
    unfold Projections.projectionOf
    cases hp : u.projectionByRun.get? runId with
    | none => exact replays_default (u.log.indexed_all runId)
    | some p => exact h.stored runId p hp
  obtain ⟨reached, hpos, hend, hp, hwhole⟩ :=
    hreplays.replayUnseen (u.log.indexed_all runId) request
  have hresult : u.projectionByRun.project {} u.log runId request =
      .ok ((replayer runId).replay (u.log.all runId) reached) := by
    obtain ⟨before, _, _, hcached⟩ := hreplays
    have hcursor : 0 ≤ (u.projectionByRun.projectionOf runId).projectedOffset := by
      rw [hcached]
      exact (replayer runId).cursor_replay_nonneg (u.log.indexed_all runId) before
    rw [Projections.project, u.log.load_eq hcursor]
    exact hp
  refine ⟨_, hresult, project_runId h.keyed hresult, ⟨reached, hpos, hend, rfl⟩, fun hget => ?_⟩
  subst hget
  rw [foldOfRun_eq_replay u.log runId, ← hwhole rfl]

/-- What is saved after a call is what was saved, or what the call projected. -/
theorem savedAfter_cases {request : Request} {runId other : String} {p q : RunProjection}
    (hname : p.runId = runId) (hq : (u.savedAfter request (.ok p)).get? other = some q) :
    u.saved.get? other = some q ∨ (other = runId ∧ q = p) := by
  have hresult : ∀ p', (.ok p : Except PyError RunProjection) = .ok p' → p'.runId = runId := by
    intro p' hp'
    cases hp'
    exact hname
  by_cases hother : other = runId
  · unfold UncachedService.savedAfter at hq
    split at hq
    · rename_i hok
      cases hok
      split at hq
      · rw [Dict.get?_set, if_pos (hother.trans hname.symm)] at hq
        cases hq
        exact .inr ⟨hother, rfl⟩
      · exact .inl hq
    · exact .inl hq
  · rw [get?_savedAfter hresult hother] at hq
    exact .inl hq

theorem keyed_savedAfter (h : u.saved.Keyed RunProjection.runId) (request : Request)
    (p : RunProjection) : (u.savedAfter request (.ok p)).Keyed RunProjection.runId := by
  unfold UncachedService.savedAfter
  split
  · split
    · exact h.set rfl
    · exact h
  · exact h

theorem Folded.call (h : Folded u) (runId : String) (request : Request) :
    Folded (u.call {} runId request) := by
  obtain ⟨p, hresult, hname, hpart, hwhole⟩ := h.project runId request
  unfold UncachedService.call
  rw [hresult]
  refine ⟨h.keyed.set hname, fun other q hq => ?_, fun other q hq => ?_,
    keyed_savedAfter h.keyedSaved request p, fun a ha hget => ?_⟩
  · replace hq : (u.projectionByRun.set runId p).get? other = some q := hq
    rw [Dict.get?_set] at hq
    by_cases hother : other = runId
    · rw [if_pos hother] at hq
      cases hq
      exact hother ▸ hpart
    · rw [if_neg hother] at hq
      exact h.stored other q hq
  · rcases savedAfter_cases hname hq with hold | ⟨hother, rfl⟩
    · exact h.saved other q hold
    · exact hother ▸ hpart
  · rcases List.mem_append.mp ha with ha | ha
    · exact h.answers a ha hget
    · rw [List.mem_singleton.mp ha] at hget ⊢
      obtain rfl : request = .get := hget
      exact congrArg (fun p => Except.ok (Answer.projection p)) (hwhole rfl)

theorem Folded.next (h : Folded u) (move : CacheMove) : Folded (u.next {} move) := by
  cases move with
  | append runId event =>
    have hgrown : ∀ other p, Replays other (u.log.all other) p →
        Replays other ((u.log.append runId event).all other) p := by
      intro other p hp
      obtain ⟨more, hmore, hlater⟩ := u.log.all_append runId other event
      rw [hmore]
      exact hp.append hlater
    exact ⟨h.keyed, fun other p hp => hgrown other p (h.stored other p hp),
      fun other p hp => hgrown other p (h.saved other p hp), h.keyedSaved, h.answers⟩
  | call runId request => exact h.call runId request
  | restart => exact ⟨h.keyedSaved, h.saved, h.saved, h.keyedSaved, h.answers⟩

/-- **Snapshot caching is transparent.** Over any log, after any moves with restarts anywhere,
the cached service answered as the uncached one, but for what the cache refused to save;
`get` answered with the fold of the whole run; and a projection comes back from its snapshot
as long as its offset has a text. -/
theorem snapshot_caching_transparent (floatOf : List Char → String) (log : OffsetLog)
    (moves : List CacheMove) :
    (∀ config, (run (CachedService.next config floatOf) { log := log } moves).answers =
      (run (UncachedService.next config) { log := log } moves).answers.map Answered.throughCache) ∧
    (∀ a ∈ (run (CachedService.next {} floatOf) { log := log } moves).answers, a.request = .get →
      a.result = .ok (.projection (foldOfRun a.runId a.log))) ∧
    (∀ p, (toSnapshot p >>= fromSnapshot floatOf) = .ok p ↔ OffsetHasText p) := by
  refine ⟨fun config => ?_, fun a ha hget => ?_, snapshot_comes_back_iff floatOf⟩
  · exact ((agrees_start floatOf log).run config moves).answers
  · have hfolded : Folded (run (UncachedService.next {}) { log := log } moves) :=
      run_invariant (fun _ move h => h.next move) (folded_start log) moves
    rw [((agrees_start floatOf log).run {} moves).answers] at ha
    obtain ⟨b, hb, rfl⟩ := List.mem_map.mp ha
    -- Nothing is saved by `get`, so nothing is refused.
    have hrequest : b.throughCache.request = b.request := by
      unfold Answered.throughCache
      split
      · split <;> rfl
      · rfl
    have hsame : b.throughCache = b := by
      unfold Answered.throughCache
      rw [hrequest] at hget
      rw [hget]
    rw [hsame] at hget ⊢
    exact hfolded.answers b hb hget

/-- A log without events. -/
def OffsetLog.empty : OffsetLog := ⟨fun _ => [], fun _ => List.Pairwise.nil⟩

/-- A run that is ready, saved, and read by another process. -/
theorem snapshot_caching_transparent_restart :
    let moves : List CacheMove := [.append "a" (factEvent "a" "run.ready" 1 none),
      .call "a" (.catchUp 1), .restart, .call "a" .get]
    (run (CachedService.next {} (fun _ => "")) { log := .empty } moves).answers =
      (run (UncachedService.next {}) { log := .empty } moves).answers.map Answered.throughCache ∧
    ∃ a ∈ (run (CachedService.next {} (fun _ => "")) { log := .empty } moves).answers,
      a.request = .get ∧ a.result = .ok (.projection (foldOfRun a.runId a.log)) := by
  intro moves
  obtain ⟨hsame, hget, _⟩ := snapshot_caching_transparent (fun _ => "") .empty moves
  have hrequests : (run (CachedService.next {} (fun _ => "")) { log := .empty } moves).answers.map
      Answered.request = [.catchUp 1, .get] := by
    rw [hsame {}]
    decide +kernel
  have hmem : Request.get ∈ (run (CachedService.next {} (fun _ => "")) { log := .empty }
      moves).answers.map Answered.request := by
    rw [hrequests]
    decide
  obtain ⟨a, ha, hrequest⟩ := List.mem_map.mp hmem
  exact ⟨hsame {}, a, ha, hrequest, hget a ha hrequest⟩

/-- A run whose offset an `INTEGER` column does not hold: the service without a cache
returns the projection, and the cached one raises. And an offset of 4301 digits has no text. -/
theorem oversized_offset_not_saved :
    (let moves : List CacheMove := [.append "a" (factEvent "a" "run.ready" 9223372036854775808 none),
      .call "a" (.catchUp 9223372036854775808)]
    (run (CachedService.next {} (fun _ => "")) { log := .empty } moves).answers.map (fun a =>
        a.result.toBool) = [false] ∧
      (run (UncachedService.next {}) { log := .empty } moves).answers.map (fun a =>
        a.result.toBool) = [true]) ∧
    ¬ ∀ p, (toSnapshot p >>= fromSnapshot (fun _ => "")) = .ok p := by
  refine ⟨⟨?_, by decide +kernel⟩, fun h => ?_⟩
  · rw [((agrees_start (fun _ => "") .empty).run {} _).answers]
    decide +kernel
  obtain ⟨n, hn⟩ : ∃ n : Nat, n = 10 ^ JsonText.intMaxStrDigits := ⟨_, rfl⟩
  have hlong : JsonText.intMaxStrDigits < (Nat.toDigits 10 n).length := by
    rw [← Nat.not_le, Nat.length_toDigits_le_iff (by decide) (by decide)]
    exact Nat.not_lt.mpr hn.ge
  have htext := (snapshot_comes_back_iff (fun _ => "") _).mp
    (h { defaultProjection "a" with projectedOffset := n })
  exact not_offsetHasText hlong rfl htext

end AgentKernel.Projection
