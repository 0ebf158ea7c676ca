import AgentKernel.Workflow.Steps

/-! What the instance shows of its run.

The projection service keeps one projection of each run, and the instance keeps the last
one it was given by `projection` or `catch_up`. Each of them is the replay of the run's
events up to some bound that the log has reached (`UpTo`), whatever happened before
(`current_run`). So what the instance shows when a commit of its own is appended is never
the fold of the log with that commit (`UpTo.stale`): only a later `catch_up` can make it
so. -/
namespace AgentKernel.Workflow
open Lib Dedupe Turns Events Projection Reconcile

/-! ### Folds of the log -/

/-- The fold of all events of a run that are no diagnostics. -/
def foldOf (j : Journal) (runId : String) : RunProjection :=
  foldProjection runId ((j.eventsOf runId).filter (fun e => e.eventAuthority ≠ .derivedDiagnostic))

theorem foldOf_eq_replay (j : Journal) (runId : String) :
    foldOf j runId = (replayer runId).replay (j.eventsOf runId) (j.lastOffset runId) := by
  rw [replay_eq_projectionThrough, projectionThrough, foldOf]
  congr 1
  refine List.filter_congr (fun e he => ?_)
  have hle := (j.indexed runId).le_lastIndex he
  rw [j.lastIndex_eventsOf] at hle
  simp [hle]

/-- A projection of a run, up to a bound that its log has reached. -/
structure UpTo (j : Journal) (runId : String) (bound : Int) (p : RunProjection) : Prop where
  nonneg : 0 ≤ bound
  reached : bound ≤ j.lastOffset runId
  replayed : p = (replayer runId).replay (j.eventsOf runId) bound

theorem upTo_default (j : Journal) (runId : String) : UpTo j runId 0 (defaultProjection runId) where
  nonneg := Int.le_refl 0
  reached := j.lastOffset_nonneg runId
  replayed := ((replayer runId).replay_zero (j.indexed runId)).symm

theorem upTo_foldOf (j : Journal) (runId : String) :
    UpTo j runId (j.lastOffset runId) (foldOf j runId) where
  nonneg := j.lastOffset_nonneg runId
  reached := Int.le_refl _
  replayed := foldOf_eq_replay j runId

theorem run_applyProjectionEvent_runId (p : RunProjection) (events : List RuntimeEvent) :
    (run applyProjectionEvent p events).runId = p.runId := by
  have hstep : ∀ (q : RunProjection) (e : RuntimeEvent), q.runId = p.runId →
      (applyProjectionEvent q e).runId = p.runId := fun _ _ h => h
  exact run_invariant (I := fun q : RunProjection => q.runId = p.runId) hstep rfl events

section
variable {j : Journal} {runId : String} {bound : Int} {p : RunProjection}

theorem UpTo.runId_eq (h : UpTo j runId bound p) : p.runId = runId := by
  rw [h.replayed]
  exact run_applyProjectionEvent_runId _ _

theorem UpTo.offset_le (h : UpTo j runId bound p) : p.projectedOffset ≤ bound := by
  rw [h.replayed]
  exact (replayer runId).cursor_replay_le h.nonneg

theorem replay_eventsOf_append (commit : ActionCommit) (hbound : bound ≤ j.lastOffset runId) :
    (replayer runId).replay ((j.append commit).eventsOf runId) bound =
      (replayer runId).replay (j.eventsOf runId) bound := by
  rw [j.eventsOf_append]
  split
  · refine (replayer runId).replay_append (fun e he => ?_)
    have hlt := Journal.lt_of_mem_new he
    show bound < e.commitOffset
    omega
  · rfl

theorem UpTo.append (h : UpTo j runId bound p) (commit : ActionCommit) :
    UpTo (j.append commit) runId bound p where
  nonneg := h.nonneg
  reached := Int.le_trans h.reached (j.lastOffset_le_append commit runId)
  replayed := h.replayed.trans (replay_eventsOf_append commit h.reached).symm

theorem UpTo.run (h : UpTo j runId bound p) (commits : List ActionCommit) :
    UpTo (run Journal.append j commits) runId bound p :=
  run_invariant (I := fun j => UpTo j runId bound p) (fun _ commit h => h.append commit) h commits

/-! ### Commits that are seen -/

/-- The last event of a commit is taken into projections. -/
def Kept (commit : ActionCommit) : Prop :=
  ∃ e, commit.events.getLast? = some e ∧ e.eventAuthority ≠ .derivedDiagnostic

theorem numberedFrom_getLast? (next : Int) (events : List RuntimeEvent) {e : RuntimeEvent}
    (h : events.getLast? = some e) :
    ∃ offset, (numberedFrom next events).getLast? = some { e with commitOffset := offset } := by
  induction events generalizing next with
  | nil => cases h
  | cons d rest ih =>
    cases rest with
    | nil =>
      cases h
      exact ⟨next, rfl⟩
    | cons d' rest =>
      obtain ⟨offset, hlast⟩ := ih (next + 1) (by simpa using h)
      exact ⟨offset, by simpa [numberedFrom] using hlast⟩

theorem Kept.getLast? {commit : ActionCommit} (h : Kept commit) (j : Journal) :
    ∃ e, ((j.append commit).eventsOf commit.runId).getLast? = some e ∧
      e.eventAuthority ≠ .derivedDiagnostic := by
  obtain ⟨e, hlast, hkept⟩ := h
  obtain ⟨offset, hnumbered⟩ := numberedFrom_getLast? (j.lastOffset commit.runId + 1) commit.events hlast
  refine ⟨{ e with commitOffset := offset }, ?_, hkept⟩
  rw [j.eventsOf_append, if_pos rfl, List.getLast?_append, hnumbered]
  rfl

theorem Kept.lastOffset_lt {commit : ActionCommit} (h : Kept commit) (j : Journal) :
    j.lastOffset commit.runId < (j.append commit).lastOffset commit.runId := by
  obtain ⟨e, hlast, -⟩ := h
  have hpos := List.length_pos_of_mem (List.mem_of_getLast? hlast)
  rw [Journal.lastOffset_append, if_pos rfl]
  omega

/-- The fold is at the end of its log when the last event is no diagnostic. -/
theorem foldOf_offset_iff (j : Journal) (runId : String) :
    (foldOf j runId).projectedOffset = j.lastOffset runId ↔
      ∀ e, (j.eventsOf runId).getLast? = some e → e.eventAuthority ≠ .derivedDiagnostic := by
  have hiff := (replayer runId).cursor_replay_eq_iff (j.indexed runId)
  have hlast : lastIndex (replayer runId).idx (j.eventsOf runId) = j.lastOffset runId :=
    j.lastIndex_eventsOf runId
  rw [hlast] at hiff
  rw [foldOf_eq_replay]
  refine hiff.trans (forall_congr' (fun e => imp_congr_right (fun _ => ?_)))
  show validateProjectionAuthorityInput e true = true ↔ _
  simp [validateProjectionAuthorityInput]

theorem foldOf_append_offset {commit : ActionCommit} (h : Kept commit) (j : Journal) :
    (foldOf (j.append commit) commit.runId).projectedOffset = (j.append commit).lastOffset commit.runId := by
  obtain ⟨e, hlast, hkept⟩ := h.getLast? j
  refine (foldOf_offset_iff _ _).mpr (fun e' he' => ?_)
  rw [hlast] at he'
  cases he'
  exact hkept

/-- **What was shown before a commit is not the fold with it.** -/
theorem UpTo.stale (h : UpTo j runId bound p) {commit : ActionCommit} (hkept : Kept commit) :
    p ≠ foldOf (j.append commit) commit.runId := by
  intro heq
  have hfold := upTo_foldOf (j.append commit) commit.runId
  have hrun : runId = commit.runId := by rw [← h.runId_eq, heq, hfold.runId_eq]
  have hoffset := foldOf_append_offset hkept j
  rw [← heq] at hoffset
  have hle := h.offset_le
  have hreached := h.reached
  have hlt := hkept.lastOffset_lt j
  rw [hrun] at hreached
  omega

/-! ### Catching up with a commit -/

theorem eventsOf_prefix_run (j : Journal) (commits : List ActionCommit) (runId : String) :
    j.eventsOf runId <+: (run Journal.append j commits).eventsOf runId := by
  refine run_invariant (I := fun j' : Journal => j.eventsOf runId <+: j'.eventsOf runId) ?_
    (List.prefix_refl _) commits
  intro j' commit h
  rw [j'.eventsOf_append]
  split
  · exact h.trans (List.prefix_append _ _)
  · exact h

theorem lastOffset_le_run (j : Journal) (commits : List ActionCommit) (runId : String) :
    j.lastOffset runId ≤ (run Journal.append j commits).lastOffset runId :=
  Int.ofNat_le.mpr (eventsOf_prefix_run j commits runId).length_le

/-- The fold is still at the end of the log when nothing was appended since, unless the
log ends in a diagnostic. -/
theorem foldOf_offset_run_iff (j : Journal) (commits : List ActionCommit) (runId : String) :
    (foldOf j runId).projectedOffset = (run Journal.append j commits).lastOffset runId ↔
      j.eventsOf runId = (run Journal.append j commits).eventsOf runId ∧
        ∀ e, ((run Journal.append j commits).eventsOf runId).getLast? = some e →
          e.eventAuthority ≠ .derivedDiagnostic := by
  have hle := (upTo_foldOf j runId).offset_le
  have hgrown := lastOffset_le_run j commits runId
  constructor
  · intro hend
    have hlength : (j.eventsOf runId).length = ((run Journal.append j commits).eventsOf runId).length := by
      have hsame : j.lastOffset runId = (run Journal.append j commits).lastOffset runId := by omega
      exact Int.ofNat_inj.mp hsame
    have hevents := (eventsOf_prefix_run j commits runId).eq_of_length hlength
    refine ⟨hevents, ?_⟩
    rw [← hevents]
    apply (foldOf_offset_iff j runId).mp
    omega
  · intro h
    obtain ⟨hevents, hlast⟩ := h
    rw [← hevents] at hlast
    have hoffset := (foldOf_offset_iff j runId).mpr hlast
    rw [hoffset, Journal.lastOffset, Journal.lastOffset, hevents]

/-- **Catching up to the offset a commit was given in advance.** The projection read at
`j`, taken one event further after a commit of one event, is the fold with that commit
when the event before the commit was the last one read. -/
theorem caughtUp_iff (j : Journal) (seen more : List ActionCommit) {commit : ActionCommit}
    (hkept : Kept commit) (hsingle : commit.events.length = 1) :
    let past := run Journal.append j seen
    let now := run Journal.append (past.append commit) more
    (replayer commit.runId).replay (now.eventsOf commit.runId) (max (j.lastOffset commit.runId)
        (min ((foldOf j commit.runId).projectedOffset + 1) (now.lastOffset commit.runId))) =
      foldOf (past.append commit) commit.runId ↔
    (foldOf j commit.runId).projectedOffset = past.lastOffset commit.runId := by
  intro past now
  have hread := (upTo_foldOf j commit.runId).offset_le
  have hseen : j.lastOffset commit.runId ≤ past.lastOffset commit.runId :=
    lastOffset_le_run j seen commit.runId
  have hmore : (past.append commit).lastOffset commit.runId ≤ now.lastOffset commit.runId :=
    lastOffset_le_run (past.append commit) more commit.runId
  have hnext : (past.append commit).lastOffset commit.runId = past.lastOffset commit.runId + 1 := by
    rw [Journal.lastOffset_append, if_pos rfl, hsingle]
    rfl
  have hend := foldOf_append_offset hkept past
  constructor
  · intro heq
    have hcursor := (replayer commit.runId).cursor_replay_le (l := now.eventsOf commit.runId)
      (Int.le_trans (j.lastOffset_nonneg commit.runId) (Int.le_max_left _ (min
        ((foldOf j commit.runId).projectedOffset + 1) (now.lastOffset commit.runId))))
    rw [heq] at hcursor
    have hoffset : (foldOf (past.append commit) commit.runId).projectedOffset ≤
        max (j.lastOffset commit.runId)
          (min ((foldOf j commit.runId).projectedOffset + 1) (now.lastOffset commit.runId)) := hcursor
    omega
  · intro hlast
    have hbound : max (j.lastOffset commit.runId)
        (min ((foldOf j commit.runId).projectedOffset + 1) (now.lastOffset commit.runId)) =
          (past.append commit).lastOffset commit.runId := by omega
    rw [hbound]
    exact ((upTo_foldOf (past.append commit) commit.runId).run more).replayed.symm

end

/-! ### The service -/

section
variable {sv : Services} {runId : String} {bound : Int}

theorem cached_set (sv : Services) (runId other : String) (p : RunProjection) :
    ({ sv with projections := sv.projections.set runId p } : Services).cached other =
      if other = runId then p else sv.cached other := by
  show ((sv.projections.set runId p).get? other).getD _ = _
  rw [Dict.get?_set]
  split
  · rfl
  · rfl

/-- How far a call of the service takes the projection of a run. -/
def Services.boundOf (sv : Services) (runId : String) (through : Option Int) : Int :=
  match through with
  | none => sv.journal.lastOffset runId
  | some t => min t (sv.journal.lastOffset runId)

/-- **A call resumes the projection it has.** -/
theorem project_resumes (h : UpTo sv.journal runId bound (sv.cached runId)) (through : Option Int) :
    let p := (replayer runId).replay (sv.journal.eventsOf runId) (max bound (sv.boundOf runId through))
    sv.project runId through = .ok (p, { sv with projections := sv.projections.set runId p }) := by
  have hlast := sv.journal.lastIndex_eventsOf runId
  have hreached : bound ≤ lastIndex RuntimeEvent.commitOffset (sv.journal.eventsOf runId) := by
    rw [hlast]
    exact h.reached
  have hresumes := fun request => replayUnseen_resumes (sv.journal.indexed runId) h.nonneg hreached
    request h.replayed
  have hloaded : sv.journal.load runId (sv.cached runId).projectedOffset =
      (sv.journal.eventsOf runId).filter
        (fun e => (sv.cached runId).projectedOffset < e.commitOffset) := rfl
  unfold Services.project
  rw [hloaded]
  cases through with
  | none =>
    have hget := hresumes .get
    rw [ProjectionService.boundOf, Projection.Request.through, hlast] at hget
    rw [hget]
    rfl
  | some t =>
    have hcatch := hresumes (.catchUp t)
    rw [ProjectionService.boundOf, Projection.Request.through, hlast] at hcatch
    rw [hcatch]
    rfl

theorem boundOf_le (sv : Services) (runId : String) (through : Option Int) :
    sv.boundOf runId through ≤ sv.journal.lastOffset runId := by
  unfold Services.boundOf
  split
  · exact Int.le_refl _
  · exact Int.min_le_right _ _

theorem upTo_project (h : UpTo sv.journal runId bound (sv.cached runId)) (through : Option Int) :
    UpTo sv.journal runId (max bound (sv.boundOf runId through))
      ((replayer runId).replay (sv.journal.eventsOf runId) (max bound (sv.boundOf runId through))) where
  nonneg := Int.le_trans h.nonneg (Int.le_max_left _ _)
  reached := Int.max_le.mpr ⟨h.reached, boundOf_le sv runId through⟩
  replayed := rfl

/-- The projection a service answers with. -/
def Request.projected? : (q : Request) → Except Raised q.Answer → Option RunProjection
  | .projection _, .ok p => some p
  | .catchUp _ _, .ok p => some p
  | _, _ => none

/-- Everything the service keeps is up to some bound. -/
def Services.UpToDate (sv : Services) : Prop :=
  ∀ runId, ∃ bound, UpTo sv.journal runId bound (sv.cached runId)

theorem Services.UpToDate.project (h : sv.UpToDate) {p : RunProjection} {sv' : Services}
    {through : Option Int} (hproject : sv.project runId through = .ok (p, sv')) :
    sv'.UpToDate ∧ ∃ bound, UpTo sv'.journal runId bound p := by
  obtain ⟨bound, hbound⟩ := h runId
  have hresumes := project_resumes hbound through
  have hupto := upTo_project hbound through
  simp only at hresumes
  rw [hproject] at hresumes
  cases hresumes
  refine ⟨fun other => ?_, _, hupto⟩
  rw [cached_set]
  split
  · rename_i hother
    subst hother
    exact ⟨_, hupto⟩
  · exact h other

theorem Services.UpToDate.answer (h : sv.UpToDate) {sv' : Services} {b : Behaviour} {turns : List Turn}
    {q : Request} {reply : Except Raised q.Answer} (ha : sv.answer b turns q = some (reply, sv')) :
    sv'.UpToDate ∧
      ∀ p, q.projected? reply = some p → ∃ runId bound, UpTo sv'.journal runId bound p := by
  rcases answer_cases ha with hp | ⟨⟨r, rfl⟩, rfl⟩
  · cases q with
    | projection runId | catchUp runId offset =>
      unfold Services.perform at hp
      simp only at hp
      split at hp
      · rename_i hproject
        obtain ⟨hdate, bound, hupto⟩ := h.project hproject
        cases hp
        refine ⟨hdate, fun p hp => ?_⟩
        cases hp
        exact ⟨_, _, hupto⟩
      · cases hp
        exact ⟨h, fun _ hp => nomatch hp⟩
    | readiness runId offset =>
      unfold Services.perform at hp
      simp only at hp
      split at hp
      · rename_i hproject
        cases hp
        exact ⟨(h.project hproject).1, fun _ hp => nomatch hp⟩
      · cases hp
        exact ⟨h, fun _ hp => nomatch hp⟩
    | append commit =>
      unfold Services.perform at hp
      simp only at hp
      split at hp
      · cases hp
        exact ⟨h, fun _ hp => nomatch hp⟩
      · cases hp
        refine ⟨fun runId => ?_, fun _ hp => nomatch hp⟩
        obtain ⟨bound, hbound⟩ := h runId
        exact ⟨bound, hbound.append commit⟩
    | turn index =>
      unfold Services.perform at hp
      simp only at hp
      split at hp
      · cases hp
        exact ⟨h, fun _ hp => nomatch hp⟩
      · cases hp
        exact ⟨h, fun _ hp => nomatch hp⟩
      · cases hp
    | _ =>
      cases hp
      exact ⟨h, fun _ hp => nomatch hp⟩
  · refine ⟨h, fun p hp => ?_⟩
    unfold Request.projected? at hp
    split at hp
    · rename_i heq
      cases heq
    · rename_i heq
      cases heq
    · cases hp

theorem answer_projection {sv sv' : Services} (hdate : sv.UpToDate) {b : Behaviour} {turns : List Turn}
    {runId : String} {p : RunProjection}
    (h : sv.answer b turns (.projection runId) = some (.ok p, sv')) :
    p = foldOf sv.journal runId ∧ sv'.cached runId = p := by
  rcases answer_cases h with hp | ⟨⟨r, hr⟩, -⟩
  · obtain ⟨bound, hbound⟩ := hdate runId
    have hresumes := project_resumes hbound none
    simp only at hresumes
    unfold Services.perform at hp
    simp only [hresumes] at hp
    cases hp
    have hend : max bound (sv.boundOf runId none) = sv.journal.lastOffset runId :=
      Int.max_eq_right hbound.reached
    refine ⟨?_, ?_⟩
    · rw [hend, foldOf_eq_replay]
    · rw [cached_set, if_pos rfl]
  · cases hr

theorem answer_catchUp {sv sv' : Services} {bound : Int} {runId : String} {p q : RunProjection}
    (hcached : sv.cached runId = q) (hbound : UpTo sv.journal runId bound q) {b : Behaviour}
    {turns : List Turn} {offset : Int}
    (h : sv.answer b turns (.catchUp runId offset) = some (.ok p, sv')) :
    p = (replayer runId).replay (sv.journal.eventsOf runId)
      (max bound (min offset (sv.journal.lastOffset runId))) := by
  rcases answer_cases h with hp | ⟨⟨r, hr⟩, -⟩
  · have hresumes := project_resumes (hcached ▸ hbound) (some offset)
    simp only at hresumes
    unfold Services.perform at hp
    simp only [hresumes] at hp
    cases hp
    rfl
  · cases hr

/-- Appending leaves the projections alone. -/
theorem answer_append_projections {sv sv' : Services} {commit : ActionCommit} {b : Behaviour} {turns : List Turn}
    {reply : Except Raised Unit} (h : sv.answer b turns (.append commit) = some (reply, sv')) :
    sv'.projections = sv.projections := by
  rcases answer_cases h with hp | ⟨-, rfl⟩
  · unfold Services.perform at hp
    simp only at hp
    split at hp <;> cases hp <;> rfl
  · rfl

end

/-! ### The instance -/

section
variable {σ : Type} {K : Kernel σ} {w : World σ}

/-- What an instance is about and what it shows. -/
structure View where
  runId : Option String
  policyVersions : Option RunPolicyVersions
  activeStageId : Option String
  lastProjection : Option RunProjection

def Actor.view (a : Actor) : View :=
  { runId := a.runId
    policyVersions := a.policyVersions
    activeStageId := a.activeStageId
    lastProjection := a.lastProjection }

theorem handleSignals_view (p : Process σ) (signals : List ActorSignal) :
    (handleSignals p signals).process.actor.view = p.actor.view := by
  induction signals with
  | nil => rfl
  | cons s rest ih =>
    unfold handleSignals
    split
    · rfl
    · split
      · exact ih
      · split
        · exact ih
        · rfl

theorem replayPending_view (p : Process σ) (input : RunInput) :
    (replayPending p input).process.actor.view = p.actor.view :=
  handleSignals_view _ _

theorem processed_view (m : Moment) (p : Process σ) (delivery : Option Delivery) :
    (processed K m p delivery).process.actor.view = p.actor.view := by
  unfold processed
  split
  · rfl
  · simp only
    split
    · rfl
    · exact handleSignals_view _ _

theorem sweepRun_actor (p : Process σ) (runId : String) (rest : List String)
    (loaded : Except PyError (List RuntimeEvent)) : (sweepRun K p runId rest loaded).process.actor = p.actor := by
  unfold sweepRun
  split
  · cases rest <;> rfl
  · rfl

/-- What is shown changes only to a projection that was answered. -/
theorem resume_view (m : Moment) (p : Process σ) (st : Stage) (reply : st.Reply) :
    (resume K m p st reply).process.actor.view = p.actor.view ∨
      ∃ projection, st.request.projected? reply = some projection ∧
        (resume K m p st reply).process.actor.view =
          { p.actor.view with lastProjection := some projection } := by
  have hcont := resume_continued K m p st reply
  generalize resume K m p st reply = r at hcont
  cases hcont with
  | started _ => exact .inr ⟨_, rfl, replayPending_view _ _⟩
  | pins _ => exact .inr ⟨_, rfl, rfl⟩
  | pinned => exact .inl (replayPending_view _ _)
  | caughtUp => exact .inr ⟨_, rfl, rfl⟩
  | returned _ => exact .inl (processed_view _ _ _)
  | unintended | unrecorded => exact .inl (by rw [rollBack_actor])
  | sweeps _ => exact .inl (by rw [sweepRun_actor])
  | ended | awaits _ | recorded | acts _ => exact .inl rfl

/-- Calls other than `run` show what the instance showed. -/
theorem enter_view {p : Process σ} {entry : Entry} {r : Resumed σ} (h : enter p entry = some r)
    (hrun : ∀ input, entry ≠ .run input) : r.process.actor.view = p.actor.view := by
  cases entry with
  | run input => exact absurd rfl (hrun input)
  | signal s =>
    unfold enter at h
    simp only at h
    split at h
    · cases h
      rfl
    · cases h
      exact handleSignals_view _ _
  | processActionCommit commit | write commit =>
    cases h
    rfl
  | reconcileOnce runIds =>
    cases h
    cases runIds <;> rfl

theorem enter_lastProjection {p : Process σ} {entry : Entry} {r : Resumed σ} (h : enter p entry = some r) :
    r.process.actor.lastProjection = p.actor.lastProjection := by
  cases entry with
  | run input =>
    unfold enter at h
    simp only at h
    split at h
    · cases h
    · cases h
      rfl
  | _ => exact congrArg View.lastProjection (enter_view h (fun _ => by simp))

/-- **Everything projected is up to some bound**: what the service keeps, what it answered
and what the instance shows. -/
structure Current (w : World σ) : Prop where
  services : w.services.UpToDate
  shown : ∀ p, w.process.actor.lastProjection = some p →
    ∃ runId bound, UpTo w.services.journal runId bound p
  told : ∀ (i : Nat) (st : Stage) (reply : st.Reply) (p : RunProjection),
    w.calls[i]? = some (.answered st reply) →
    st.request.projected? reply = some p → ∃ runId bound, UpTo w.services.journal runId bound p

theorem current_fresh (journal : Journal) (store : σ) : Current (World.fresh journal store) where
  services := fun runId => ⟨0, upTo_default journal runId⟩
  shown := fun _ h => nomatch h
  told := fun _ _ _ _ h => nomatch h

/-- A step that answers no call. -/
theorem Current.kept (h : Current w) {w' : World σ} (hservices : w'.services = w.services)
    (hshown : ∀ p, w'.process.actor.lastProjection = some p →
      ∃ runId bound, UpTo w.services.journal runId bound p)
    (hcalls : ∀ (i : Nat) (st : Stage) (reply : st.Reply),
      w'.calls[i]? = some (.answered st reply) → w.calls[i]? = some (.answered st reply)) :
    Current w' where
  services := hservices ▸ h.services
  shown := hservices ▸ hshown
  told := by
    intro i st reply p hcall hp
    rw [hservices]
    exact h.told i st reply p (hcalls i st reply hcall) hp

theorem answered_append {calls : List Status} {next : Next} {i : Nat} {st : Stage} {reply : st.Reply}
    (h : (calls ++ [next.status])[i]? = some (.answered st reply)) :
    calls[i]? = some (.answered st reply) := by
  rcases Nat.lt_or_ge i calls.length with hlt | hge
  · rwa [List.getElem?_append_left hlt] at h
  · rw [List.getElem?_append_right hge] at h
    have hlast := List.mem_of_getElem? h
    rw [List.mem_singleton] at hlast
    cases next <;> cases hlast

theorem answered_set {calls : List Status} {next : Next} {i k : Nat} {st : Stage} {reply : st.Reply}
    (h : (calls.set k next.status)[i]? = some (.answered st reply)) :
    calls[i]? = some (.answered st reply) := by
  by_cases hik : k = i
  · subst hik
    obtain ⟨hlt, -⟩ := List.getElem?_eq_some_iff.mp h
    rw [List.length_set] at hlt
    rw [List.getElem?_set_self hlt] at h
    cases next <;> cases h
  · rwa [List.getElem?_set_ne hik] at h

theorem abandoned_answered {x : Status} {st : Stage} {reply : st.Reply}
    (h : World.abandoned x = .answered st reply) : x = .answered st reply := by
  unfold World.abandoned at h
  split at h <;> cases h <;> rfl

theorem Current.step (h : Current w) (l : Label) : Current (w.step K l) := by
  have htaken := step_taken K w l
  generalize w.step K l = w' at htaken
  cases htaken with
  | idle => exact h
  | called henter =>
    refine h.kept rfl (fun p hp => h.shown p ?_) (fun i st reply hi => answered_append hi)
    rw [← enter_lastProjection henter]
    exact hp
  | @served j b st reply services hcall hanswer =>
    obtain ⟨hdate, hprojected⟩ := h.services.answer hanswer
    have hjournal := answer_journal hanswer
    refine ⟨hdate, fun p hp => ?_, fun i st' reply' p hi hp => ?_⟩
    · obtain ⟨runId, bound, hupto⟩ := h.shown p hp
      refine ⟨runId, bound, ?_⟩
      show UpTo services.journal runId bound p
      rw [hjournal]
      exact hupto.run _
    · by_cases hij : j = i
      · subst hij
        obtain ⟨hlt, -⟩ := List.getElem?_eq_some_iff.mp hcall
        have hself : (w.calls.set j (.answered st reply))[j]? = some (.answered st reply) :=
          List.getElem?_set_self hlt
        cases hself.symm.trans hi
        exact hprojected p hp
      · have hother : w.calls[i]? = some (.answered st' reply') := by
          rw [← hi]
          exact (List.getElem?_set_ne hij).symm
        obtain ⟨runId, bound, hupto⟩ := h.told i st' reply' p hother hp
        refine ⟨runId, bound, ?_⟩
        show UpTo services.journal runId bound p
        rw [hjournal]
        exact hupto.run _
  | @resumed j m st reply hcall =>
    refine h.kept rfl (fun p hp => ?_) (fun i st reply hi => answered_set hi)
    have hp' : (resume K m w.process st reply).process.actor.lastProjection = some p := hp
    rcases resume_view (K := K) m w.process st reply with hsame | ⟨q, hq, hnew⟩
    · exact h.shown p ((congrArg View.lastProjection hsame).symm.trans hp')
    · cases (congrArg View.lastProjection hnew).symm.trans hp'
      exact h.told j st reply _ hcall hq
  | startedTurn => exact h.kept rfl h.shown (fun _ _ _ hi => hi)
  | movedTurn => exact h.kept rfl h.shown (fun _ _ _ hi => hi)
  | restarted hinput =>
    refine h.kept rfl (fun p hp => nomatch hp) (fun i st reply hi => ?_)
    have hold := @answered_append _ (.await (.starting _)) _ _ _ hi
    have hmap : (w.calls.map World.abandoned)[i]? = some (.answered st reply) := hold
    rw [List.getElem?_map] at hmap
    obtain ⟨x, hx, hxe⟩ := Option.map_eq_some_iff.mp hmap
    rw [hx, abandoned_answered hxe]

theorem current_run (K : Kernel σ) (journal : Journal) (store : σ) (labels : List Label) :
    Current (run (World.step K) (World.fresh journal store) labels) :=
  run_invariant (I := Current) (fun _ l h => Current.step h l) (current_fresh journal store) labels

end
end AgentKernel.Workflow
