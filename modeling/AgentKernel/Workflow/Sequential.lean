import AgentKernel.Workflow.Solo

/-! One instance that alone writes the log of its run and handles one call after the other.

`Sequential` says of a step that no call is made before the last one has ended, that no
service fails and that nobody else calls, writes or runs turns. Two things can make what
the instance shows differ from the fold of its log: a commit that was appended and not
caught up with, and the outcomes and recoveries that are appended after the `catch_up`.
The first lasts as long as the call it is made in, the second names no child run. So
wherever a signal is looked at, the child runs the instance shows are those of the fold
(`Aligned`, kept by `Attends.step`). -/
namespace AgentKernel.Workflow
open Lib Dedupe Turns Events Projection Reconcile

/-! ### Child runs in the log -/

/-- The child runs that a log says are active. -/
def activeChildRuns (j : Journal) (runId : String) : List String := (foldOf j runId).activeChildRuns

/-- The child runs that an instance shows. -/
def Actor.activeChildRuns (a : Actor) : List String :=
  match a.lastProjection with
  | none => []
  | some projection => projection.activeChildRuns

/-- The event names no child run. -/
def Childless (e : RuntimeEvent) : Prop := extractChildRunId e = none

theorem Childless.kept {e : RuntimeEvent} (h : Childless e) (p : RunProjection) :
    (applyProjectionEvent p e).activeChildRuns = p.activeChildRuns := by
  show resolveActiveChildRuns p e = _
  unfold resolveActiveChildRuns
  split
  · rfl
  · rw [h]

theorem activeChildRuns_run {events : List RuntimeEvent} (h : ∀ e ∈ events, Childless e)
    (p : RunProjection) : (run applyProjectionEvent p events).activeChildRuns = p.activeChildRuns :=
  run_invariant_of (I := fun q : RunProjection => q.activeChildRuns = p.activeChildRuns)
    (fun q _ he hq => (he.kept q).trans hq) rfl events h

theorem childless_numbered {next : Int} {events : List RuntimeEvent} (h : ∀ e ∈ events, Childless e) :
    ∀ e ∈ numberedFrom next events, Childless e := by
  induction events generalizing next with
  | nil => exact fun _ he => nomatch he
  | cons d rest ih =>
    intro e he
    rcases List.mem_cons.mp he with rfl | he
    · exact h d List.mem_cons_self
    · exact ih (fun e he => h e (List.mem_cons_of_mem d he)) e he

section
variable {j : Journal} {runId : String}

/-- Between two bounds with no child run named in between, none comes or goes. -/
theorem activeChildRuns_replay {reached bound : Int} (hle : reached ≤ bound)
    (h : ∀ e ∈ j.eventsOf runId, reached < e.commitOffset → Childless e) :
    ((replayer runId).replay (j.eventsOf runId) bound).activeChildRuns =
      ((replayer runId).replay (j.eventsOf runId) reached).activeChildRuns := by
  have hsplit : upTo (replayer runId).idx (replayer runId).keep (j.eventsOf runId) bound = _ :=
    upTo_split (j.indexed runId).sorted hle
  rw [Replayer.replay, Replayer.replay, hsplit, run_append]
  refine activeChildRuns_run (fun e he => ?_) _
  obtain ⟨hmem, hbetween⟩ := List.mem_filter.mp he
  rw [Bool.and_eq_true, Bool.and_eq_true] at hbetween
  exact h e hmem (of_decide_eq_true hbetween.1.2)

/-- Every projection between a bound and the end of the log shows the child runs of the log. -/
theorem activeChildRuns_of_childless {reached bound : Int} (hle : reached ≤ bound)
    (hend : bound ≤ j.lastOffset runId)
    (h : ∀ e ∈ j.eventsOf runId, reached < e.commitOffset → Childless e) :
    ((replayer runId).replay (j.eventsOf runId) bound).activeChildRuns = activeChildRuns j runId := by
  have hall := activeChildRuns_replay (Int.le_trans hle hend) h
  rw [activeChildRuns, foldOf_eq_replay, hall]
  exact activeChildRuns_replay hle h

end

/-- A commit of a run that is seen and names no child run. -/
structure Silent (runId : String) (commit : ActionCommit) : Prop where
  runId_eq : commit.runId = runId
  kept : Kept commit
  childless : ∀ e ∈ commit.events, Childless e

theorem silent_policyPinnedCommit (runId : String) (versions : RunPolicyVersions) (now : String) :
    Silent runId (policyPinnedCommit runId versions now) where
  runId_eq := rfl
  kept := ⟨_, rfl, fun h => nomatch h⟩
  childless := by
    intro e he
    rw [List.mem_singleton.mp he]
    rfl

theorem silent_recoveryCommit (runId : String) (offset : Int) (decision : RecoveryDecision)
    (causedBy now : String) : Silent runId (recoveryCommit runId offset decision causedBy now) where
  runId_eq := rfl
  kept := ⟨_, rfl, fun h => nomatch h⟩
  childless := by
    intro e he
    rcases List.mem_cons.mp he with rfl | he
    · rfl
    · rw [List.mem_singleton.mp he]
      rfl

theorem lookup_optionalEntry {α : Type} {key name : String} (h : name ≠ key) (value : Option α)
    (make : α → Value) : (optionalEntry key value make).lookup name = none := by
  unfold optionalEntry
  split
  · rw [List.lookup_cons, beq_false_of_ne h]
    rfl
  · rfl

theorem lookup_buildTurnOutcomePayload (result : TurnResult) :
    (buildTurnOutcomePayload result).lookup "child_run_id" = none := by
  have hstates : (if result.emittedEvents.isEmpty then []
      else [("emitted_states", Value.list ((extractTurnEmittedStates result.emittedEvents).map .str))]
      : Payload).lookup "child_run_id" = none := by
    split <;> rfl
  have hhead : ([("state", .str (turnStateText result.state)),
      ("outcome_kind", .str (outcomeKindText result.outcomeKind)),
      ("decision_ref", .str result.decisionRef),
      ("decision_fingerprint", .str result.decisionFingerprint)] : Payload).lookup "child_run_id" =
        none := rfl
  unfold buildTurnOutcomePayload
  simp only [List.lookup_append, hhead, hstates, Option.or_none]
  simp (disch := decide) only [lookup_optionalEntry, Option.or_none]

theorem childless_of_lookup {e : RuntimeEvent}
    (h : (e.payloadJson.getD []).lookup "child_run_id" = none) : Childless e := by
  have htext : payloadText e "child_run_id" = none := by
    unfold payloadText Value.field
    rw [h]
    rfl
  unfold Childless extractChildRunId
  rw [htext]

theorem silent_turnOutcomeCommit (runId : String) (offset : Int) (result : TurnResult)
    (causedBy now : String) : Silent runId (turnOutcomeCommit runId offset result causedBy now) where
  runId_eq := rfl
  kept := ⟨_, rfl, fun h => nomatch h⟩
  childless := by
    intro e he
    rw [List.mem_singleton.mp he]
    exact childless_of_lookup (lookup_buildTurnOutcomePayload result)

/-! ### What the services know of a run -/

/-- Whatever the projection service answers about the run shows the child runs of its log. -/
structure Known (runId : String) (sv : Services) : Prop where
  /-- The log does not end in a diagnostic. -/
  ends : (foldOf sv.journal runId).projectedOffset = sv.journal.lastOffset runId
  reached : ∃ bound, UpTo sv.journal runId bound (sv.cached runId) ∧
    ∀ e ∈ sv.journal.eventsOf runId, bound < e.commitOffset → Childless e

/-- The last event of the run is not caught up with; it was expected at this offset. -/
structure Behind (runId : String) (sv : Services) (offset : Int) : Prop where
  ends : (foldOf sv.journal runId).projectedOffset = sv.journal.lastOffset runId
  expected : offset = sv.journal.lastOffset runId
  reached : ∃ bound, UpTo sv.journal runId bound (sv.cached runId)

section
variable {runId : String} {sv sv' : Services}

theorem known_of_empty {j : Journal} (h : j.eventsOf runId = []) : Known runId { journal := j } where
  ends := by
    refine (foldOf_offset_iff j runId).mpr (fun e he => ?_)
    rw [h] at he
    cases he
  reached := by
    refine ⟨0, upTo_default j runId, fun e he => ?_⟩
    rw [show j.eventsOf runId = [] from h] at he
    cases he

theorem Known.congr (h : Known runId sv) (hjournal : sv'.journal = sv.journal)
    (hprojections : sv'.projections = sv.projections) : Known runId sv' where
  ends := hjournal ▸ h.ends
  reached := by
    obtain ⟨bound, hbound, hrest⟩ := h.reached
    have hcached : sv'.cached runId = sv.cached runId := by
      rw [Services.cached, Services.cached, hprojections]
    rw [hjournal, hcached]
    exact ⟨bound, hbound, hrest⟩

/-- What the service answers, and what it knows then. -/
structure Answers (runId : String) (sv : Services) (p : RunProjection) (sv' : Services) : Prop where
  known : Known runId sv'
  journal : sv'.journal = sv.journal
  shows : p.activeChildRuns = activeChildRuns sv.journal runId

/-- **A projection of a known run shows the child runs of the log**, however far it is taken. -/
theorem Known.project (h : Known runId sv) (through : Option Int) :
    ∃ p sv', sv.project runId through = .ok (p, sv') ∧ Answers runId sv p sv' := by
  obtain ⟨bound, hbound, hrest⟩ := h.reached
  have hresumes := project_resumes hbound through
  have hupto := upTo_project hbound through
  have hlater : ∀ e ∈ sv.journal.eventsOf runId, max bound (sv.boundOf runId through) < e.commitOffset →
      Childless e :=
    fun e he hlt => hrest e he (Int.lt_of_le_of_lt (Int.le_max_left _ _) hlt)
  refine ⟨_, _, hresumes, ⟨h.ends, _, ?_, hlater⟩, rfl, ?_⟩
  · rw [cached_set, if_pos rfl]
    exact hupto
  · exact activeChildRuns_of_childless (Int.le_max_left _ _) hupto.reached hrest

/-- The whole log is read. -/
theorem Known.read (h : Known runId sv) {p : RunProjection} (hproject : sv.project runId none = .ok (p, sv')) :
    p.projectedOffset = sv.journal.lastOffset runId := by
  obtain ⟨bound, hbound, -⟩ := h.reached
  have hresumes := project_resumes hbound none
  have hend : max bound (sv.boundOf runId none) = sv.journal.lastOffset runId :=
    Int.max_eq_right hbound.reached
  rw [hend, ← foldOf_eq_replay] at hresumes
  rw [hproject] at hresumes
  cases hresumes
  exact h.ends

/-- **Catching up with the last event.** -/
theorem Behind.project {offset : Int} (h : Behind runId sv offset) :
    ∃ p sv', sv.project runId (some offset) = .ok (p, sv') ∧ Answers runId sv p sv' := by
  obtain ⟨bound, hbound⟩ := h.reached
  have hresumes := project_resumes hbound (some offset)
  have hlast : max bound (sv.boundOf runId (some offset)) = sv.journal.lastOffset runId := by
    have hreached := hbound.reached
    have hexpected := h.expected
    unfold Services.boundOf
    simp only
    omega
  rw [hlast, ← foldOf_eq_replay] at hresumes
  refine ⟨_, _, hresumes, ⟨h.ends, sv.journal.lastOffset runId, ?_, fun e he hlt => ?_⟩, rfl, rfl⟩
  · rw [cached_set, if_pos rfl]
    exact upTo_foldOf sv.journal runId
  · have hle := (sv.journal.indexed runId).le_lastIndex he
    rw [sv.journal.lastIndex_eventsOf] at hle
    exact absurd hlt (by omega)

theorem ends_append {commit : ActionCommit} (h : Kept commit) (hrun : commit.runId = runId) (j : Journal) :
    (foldOf (j.append commit) runId).projectedOffset = (j.append commit).lastOffset runId := by
  subst hrun
  exact foldOf_append_offset h j

/-- **A silent commit changes no child runs.** -/
theorem Known.append (h : Known runId sv) {commit : ActionCommit} (hsilent : Silent runId commit) :
    Known runId { sv with journal := sv.journal.append commit } ∧
      activeChildRuns (sv.journal.append commit) runId = activeChildRuns sv.journal runId := by
  obtain ⟨bound, hbound, hrest⟩ := h.reached
  have hlater : ∀ e ∈ (sv.journal.append commit).eventsOf runId, bound < e.commitOffset → Childless e := by
    intro e he hlt
    rw [sv.journal.eventsOf_append, if_pos hsilent.runId_eq.symm] at he
    rcases List.mem_append.mp he with hold | hnew
    · exact hrest e hold hlt
    · exact childless_numbered hsilent.childless e hnew
  have hgrown := (hbound.append commit)
  refine ⟨⟨ends_append hsilent.kept hsilent.runId_eq sv.journal, bound, hgrown, hlater⟩, ?_⟩
  have hnow := activeChildRuns_of_childless (Int.le_refl bound) hgrown.reached hlater
  have hbefore := activeChildRuns_of_childless (Int.le_refl bound) hbound.reached hrest
  rw [← hnow, ← hbefore, replay_eventsOf_append commit hbound.reached]

/-- A signal's event comes where its call expects it. -/
theorem Known.signalled (h : Known runId sv) (s : ActorSignal) (sequence : Nat) (now : String) :
    Behind runId { sv with journal := sv.journal.append (signalCommit runId s sequence
        (sv.journal.lastOffset runId + 1) now) } (sv.journal.lastOffset runId + 1) where
  ends := ends_append ⟨_, rfl, by simp⟩ rfl sv.journal
  expected := by
    rw [Journal.lastOffset_append]
    simp [signalCommit]
  reached := by
    obtain ⟨bound, hbound, -⟩ := h.reached
    exact ⟨bound, hbound.append _⟩

end

/-! ### Where a call stands -/

/-- The instance shows the child runs of its log. -/
structure Aligned (runId : String) (sv : Services) (a : Actor) : Prop where
  known : Known runId sv
  shown : a.activeChildRuns = activeChildRuns sv.journal runId

/-- The stages at which nothing of a signal is on its way into the log. -/
def Stage.Calm (runId : String) : Stage → Prop
  | .starting input => input.runId = runId
  | .pinning _ commit => Silent runId commit
  | .catchingUp q | .readying q _ | .lookingUp q _ | .marking q _ => q.commit.runId = runId
  | .recordingOutcome a _ commit => a.processing.commit.runId = runId ∧ Silent runId commit
  | .recovering a _ _ commit => a.processing.commit.runId = runId ∧ Silent runId commit
  | .turning a _ | .intending a _ _ | .gateBefore a _ | .deciding a _ _ | .gateAfter a _ _ _
  | .settling a _ _ => a.processing.commit.runId = runId
  | _ => False

/-- What is known at a call, when no other call is under way. -/
inductive Stands (runId : String) (sv : Services) (a : Actor) : Status → Prop where
  | ended {r : Except Raised Unit} : Aligned runId sv a → Stands runId sv a (.ended r)
  | asks {st : Stage} : st.Calm runId → Aligned runId sv a → Stands runId sv a (.awaiting st)
  | told {st : Stage} {reply : st.Reply} : st.Calm runId → Aligned runId sv a →
    st.request.projected? reply = none → Stands runId sv a (.answered st reply)
  | projected {st : Stage} {reply : st.Reply} {p : RunProjection} : st.Calm runId → Known runId sv →
    st.request.projected? reply = some p → p.activeChildRuns = activeChildRuns sv.journal runId →
    Stands runId sv a (.answered st reply)
  | asked {d : Delivery} : d.runId = runId → a.authorizes d.signal = true → Aligned runId sv a →
    Stands runId sv a (.awaiting (.signalled d))
  | read {d : Delivery} {p : RunProjection} : d.runId = runId → a.authorizes d.signal = true →
    Aligned runId sv a → p.projectedOffset = sv.journal.lastOffset runId →
    Stands runId sv a (.answered (.signalled d) (.ok p))
  | recording {d : Delivery} {sequence : Nat} {now : String} : d.runId = runId →
    a.authorizes d.signal = true → Aligned runId sv a →
    Stands runId sv a (.awaiting (.recording d (signalCommit d.runId d.signal sequence
      (sv.journal.lastOffset runId + 1) now)))
  | recorded {d : Delivery} {sequence : Nat} {offset : Int} {now : String} : d.runId = runId →
    Behind runId sv offset →
    Stands runId sv a (.answered (.recording d (signalCommit d.runId d.signal sequence offset now))
      (.ok ()))
  | refreshing {q : Processing} : q.commit.runId = runId → Behind runId sv q.offset →
    Stands runId sv a (.awaiting (.catchingUp q))

/-- A request that is about the run, and puts nothing into its log that names a child run. -/
def Request.About (runId : String) : Request → Prop
  | .projection other | .catchUp other _ | .readiness other _ => other = runId
  | .append commit => Silent runId commit
  | _ => True

theorem Stage.Calm.about {runId : String} {st : Stage} (h : st.Calm runId) : st.request.About runId := by
  cases st with
  | recordingOutcome a result commit | recovering a round decision commit => exact h.2
  | signalled d | recording d commit | writing commit => exact h.elim
  | _ => first | exact h | exact trivial

section
variable {σ : Type} {runId : String} {sv sv' : Services} {a : Actor} {b : Behaviour} {turns : List Turn}

theorem Aligned.known_congr (h : Aligned runId sv a) (hknown : Known runId sv')
    (hjournal : sv'.journal = sv.journal) : Aligned runId sv' a where
  known := hknown
  shown := hjournal ▸ h.shown

theorem Aligned.of_lastProjection (h : Aligned runId sv a) {a' : Actor}
    (hlast : a'.lastProjection = a.lastProjection) : Aligned runId sv a' where
  known := h.known
  shown := by
    rw [← h.shown, Actor.activeChildRuns, Actor.activeChildRuns, hlast]

theorem Aligned.of_projection (hknown : Known runId sv) {p : RunProjection}
    (hp : p.activeChildRuns = activeChildRuns sv.journal runId) (hlast : a.lastProjection = some p) :
    Aligned runId sv a where
  known := hknown
  shown := by
    unfold Actor.activeChildRuns
    rw [hlast]
    exact hp

/-- **A request about the run keeps the instance aligned**, and is answered with the child
runs of the log. -/
theorem Aligned.performed (h : Aligned runId sv a) {q : Request} {reply : Except Raised q.Answer}
    (hq : q.About runId) (hperform : sv.perform b turns q = some (reply, sv')) :
    Aligned runId sv' a ∧ ∀ p, q.projected? reply = some p →
      p.activeChildRuns = activeChildRuns sv'.journal runId := by
  have hsame : ∀ {sv' : Services}, sv'.journal = sv.journal → sv'.projections = sv.projections →
      Aligned runId sv' a :=
    fun hjournal hprojections => h.known_congr (h.known.congr hjournal hprojections) hjournal
  cases q with
  | projection other | catchUp other offset =>
    subst hq
    unfold Services.perform at hperform
    simp only at hperform
    split at hperform
    · rename_i p services hproject
      cases hperform
      obtain ⟨p', sv'', hanswer, hknown, hjournal, hshows⟩ := h.known.project _
      rw [hproject] at hanswer
      cases hanswer
      refine ⟨h.known_congr hknown hjournal, fun p hp => ?_⟩
      cases hp
      rw [hshows, hjournal]
    · cases hperform
      exact ⟨h, fun _ hp => nomatch hp⟩
  | readiness other offset =>
    subst hq
    obtain ⟨p', sv'', hanswer, hknown, hjournal, -⟩ := h.known.project none
    unfold Services.perform at hperform
    simp only [hanswer] at hperform
    cases hperform
    exact ⟨h.known_congr hknown hjournal, fun _ hp => nomatch hp⟩
  | append commit =>
    unfold Services.perform at hperform
    simp only at hperform
    split at hperform
    · cases hperform
      exact ⟨h, fun _ hp => nomatch hp⟩
    · cases hperform
      obtain ⟨hknown, hchildren⟩ := h.known.append hq
      exact ⟨⟨hknown, h.shown.trans hchildren.symm⟩, fun _ hp => nomatch hp⟩
  | turn index =>
    unfold Services.perform at hperform
    simp only at hperform
    split at hperform
    · cases hperform
      exact ⟨h, fun _ hp => nomatch hp⟩
    · cases hperform
      exact ⟨h, fun _ hp => nomatch hp⟩
    · cases hperform
  | _ =>
    cases hperform
    exact ⟨hsame rfl rfl, fun _ hp => nomatch hp⟩

/-- A call that is answered. -/
theorem Stands.served {st : Stage} {reply : st.Reply} (h : Stands runId sv a (.awaiting st))
    (hb : b.failure = none) (hanswer : sv.answer b turns st.request = some (reply, sv')) :
    Stands runId sv' a (.answered st reply) := by
  rw [answer_healthy hb] at hanswer
  cases h with
  | asks hcalm haligned =>
    obtain ⟨hafter, hprojected⟩ := haligned.performed hcalm.about hanswer
    cases hp : st.request.projected? reply with
    | none => exact .told hcalm hafter hp
    | some p => exact .projected hcalm hafter.known hp (hprojected p hp)
  | @asked d hrun hauthorized haligned =>
    obtain ⟨p, services, hproject, hknown, hjournal, hshows⟩ := haligned.known.project none
    have hread := haligned.known.read hproject
    subst hrun
    unfold Services.perform Stage.request at hanswer
    simp only [hproject] at hanswer
    cases hanswer
    exact .read rfl hauthorized (haligned.known_congr hknown hjournal) (hjournal ▸ hread)
  | @recording d sequence now hrun hauthorized haligned =>
    subst hrun
    cases hanswer
    exact .recorded rfl (haligned.known.signalled d.signal sequence now)
  | @refreshing q hrun hbehind =>
    obtain ⟨p, services, hproject, hknown, hjournal, hshows⟩ := hbehind.project
    have hcalm : (Stage.catchingUp q).Calm runId := hrun
    subst hrun
    unfold Services.perform Stage.request at hanswer
    simp only [hproject] at hanswer
    cases hanswer
    refine .projected hcalm hknown rfl ?_
    rw [hshows, hjournal]

end

/-! ### The call goes on -/

/-- The instance is of the run, if it has been started. -/
def Actor.OfRun (runId : String) (a : Actor) : Prop := ∀ other, a.runId = some other → other = runId

/-- A call is where it should be. -/
structure Resumed.Stands {σ : Type} (runId : String) (sv : Services) (r : Resumed σ) : Prop where
  ofRun : r.process.actor.OfRun runId
  stands : AgentKernel.Workflow.Stands runId sv r.process.actor r.next.status

section
variable {σ : Type} {K : Kernel σ} {runId : String} {sv : Services} {p : Process σ}

theorem Actor.OfRun.runId? {a : Actor} (h : a.OfRun runId) {other : String} (hother : a.runId? = some other) :
    other = runId := by
  unfold Actor.runId? at hother
  split at hother
  · rename_i text htext
    split at hother
    · cases hother
    · cases hother
      exact h other htext
  · cases hother

/-- Signals are looked at until one is taken. -/
theorem handleSignals_stands (hrun : p.actor.OfRun runId) (h : Aligned runId sv p.actor)
    (signals : List ActorSignal) : (handleSignals p signals).Stands runId sv := by
  induction signals with
  | nil => exact ⟨hrun, .ended h⟩
  | cons s rest ih =>
    unfold handleSignals
    split
    · exact ⟨hrun, .ended h⟩
    · rename_i other hother
      split
      · exact ⟨ih.ofRun, ih.stands⟩
      · rename_i hauthorized
        split
        · exact ⟨ih.ofRun, ih.stands⟩
        · exact ⟨hrun, .asked (hrun.runId? hother) (not_not.mp hauthorized) (h.of_lastProjection rfl)⟩

theorem processed_stands (m : Moment) (hrun : p.actor.OfRun runId) (h : Aligned runId sv p.actor)
    (delivery : Option Delivery) : (processed K m p delivery).Stands runId sv := by
  have hcounted : Aligned runId sv p.counted.actor := h.of_lastProjection rfl
  unfold processed
  split
  · exact ⟨hrun, .ended h⟩
  · rename_i d
    simp only
    split
    · exact ⟨hrun, .ended (h.of_lastProjection rfl)⟩
    · have hrest := handleSignals_stands (p := p.counted) hrun hcounted d.rest
      exact ⟨hrest.ofRun, hrest.stands⟩

theorem Guarded.calm {a : Acting} {st : Stage} (h : Guarded a st) (hcalm : st.Calm runId) :
    a.processing.commit.runId = runId := by
  cases h with
  | outcome | recovering => exact hcalm.1
  | _ => exact hcalm

/-- From await to await nothing gets on its way into the log but silent commits. -/
theorem Follows.calm {st st' : Stage} (h : Follows st st') (hcalm : st.Calm runId) : st'.Calm runId := by
  cases h with
  | recording => exact hcalm.elim
  | outcome | intended => exact ⟨hcalm, hcalm ▸ silent_turnOutcomeCommit _ _ _ _ _⟩
  | recovering => exact ⟨hcalm, hcalm ▸ silent_recoveryCommit _ _ _ _ _⟩
  | pending | settling => exact hcalm.1
  | handler hguarded => exact hguarded.calm hcalm
  | _ => exact hcalm

theorem processActionCommit_cases (commit : ActionCommit) (delivery : Option Delivery) :
    (∃ r, processActionCommit commit delivery = .end r) ∨
      ∃ offset, processActionCommit commit delivery = .await (.catchingUp ⟨commit, offset, delivery⟩) := by
  unfold processActionCommit
  split
  · exact .inl ⟨_, rfl⟩
  · split
    · exact .inl ⟨_, rfl⟩
    · exact .inr ⟨_, rfl⟩

/-- A call that goes on with no projection in hand. -/
theorem resume_told (m : Moment) {st : Stage} {reply : st.Reply} (hrun : p.actor.OfRun runId)
    (h : Aligned runId sv p.actor) (hcalm : st.Calm runId) (hnone : st.request.projected? reply = none) :
    (resume K m p st reply).Stands runId sv := by
  have hcont := resume_continued K m p st reply
  generalize resume K m p st reply = r at hcont
  cases hcont with
  | ended => exact ⟨hrun, .ended h⟩
  | awaits hfollows => exact ⟨hrun, .asks (hfollows.calm hcalm) h⟩
  | started _ => cases hnone
  | pins _ => cases hnone
  | caughtUp => cases hnone
  | pinned => exact handleSignals_stands (p := { p with actor := { p.actor with
      pendingSignals := [] } }) hrun (h.of_lastProjection rfl) _
  | recorded => exact hcalm.elim
  | returned hreturns => exact processed_stands m hrun h _
  | acts haction => exact ⟨hrun, .asks hcalm h⟩
  | unintended =>
    refine ⟨?_, .asks hcalm ?_⟩
    · rw [rollBack_actor]
      exact hrun
    · rw [rollBack_actor]
      exact h
  | unrecorded =>
    refine ⟨?_, .asks hcalm.1 ?_⟩
    · rw [rollBack_actor]
      exact hrun
    · rw [rollBack_actor]
      exact h
  | sweeps _ => exact hcalm.elim

/-- A call that was given a projection of the run. -/
theorem resume_projected (m : Moment) {st : Stage} {reply : st.Reply} {projection : RunProjection}
    (hrun : p.actor.OfRun runId) (hknown : Known runId sv) (hcalm : st.Calm runId)
    (hreply : st.request.projected? reply = some projection)
    (hshows : projection.activeChildRuns = activeChildRuns sv.journal runId) :
    (resume K m p st reply).Stands runId sv := by
  cases st with
  | starting input =>
    cases reply with
    | error r => cases hreply
    | ok projection' =>
      cases hreply
      have haligned : Aligned runId sv { p.actor with lastProjection := some projection } :=
        .of_projection hknown hshows rfl
      unfold resume
      simp only
      split
      · exact handleSignals_stands (p := { p with actor := { p.actor with
          lastProjection := some projection, pendingSignals := [] } }) hrun
          (haligned.of_lastProjection rfl) _
      · rename_i versions _
        have hpin : (Stage.pinning input (policyPinnedCommit input.runId versions m.now)).Calm runId :=
          (show input.runId = runId from hcalm) ▸ silent_policyPinnedCommit _ _ _
        exact ⟨hrun, .asks hpin haligned⟩
  | catchingUp q =>
    cases reply with
    | error r => cases hreply
    | ok projection' =>
      cases hreply
      have haligned : Aligned runId sv { p.actor with lastProjection := some projection } :=
        .of_projection hknown hshows rfl
      have hnext : (Stage.readying q projection).Calm runId := hcalm
      exact ⟨hrun, .asks hnext haligned⟩
  | signalled d | recording d commit | writing commit | sweeping other rest => exact hcalm.elim
  | _ => cases reply <;> cases hreply

/-- **A call that goes on is where it should be again.** -/
theorem Stands.resumed (m : Moment) {st : Stage} {reply : st.Reply} (hrun : p.actor.OfRun runId)
    (h : Stands runId sv p.actor (.answered st reply)) : (resume K m p st reply).Stands runId sv := by
  cases h with
  | told hcalm haligned hnone => exact resume_told m hrun haligned hcalm hnone
  | projected hcalm hknown hreply hshows => exact resume_projected m hrun hknown hcalm hreply hshows
  | @read d projection hid hauthorized haligned hread =>
    refine ⟨hrun, ?_⟩
    show Stands runId sv p.actor (.awaiting (.recording d (signalCommit d.runId d.signal
      p.actor.signalSequence (projection.projectedOffset + 1) m.now)))
    rw [hread]
    exact .recording hid hauthorized haligned
  | @recorded d sequence offset now hid hbehind =>
    refine ⟨hrun, ?_⟩
    show Stands runId sv _ (.awaiting (.catchingUp
      ⟨signalCommit d.runId d.signal sequence offset now, offset, some d⟩))
    exact .refreshing hid hbehind

end

/-! ### One call after the other -/

/-- No call is under way. -/
def World.Idle {σ : Type} (w : World σ) : Prop := ∀ x ∈ w.calls, x.stage?.isNone = true

instance {σ : Type} (w : World σ) : Decidable w.Idle := inferInstanceAs (Decidable (∀ x ∈ w.calls, _))

/-- The instance of the run is called again when it has handled what it was called with; the
services do not fail, and nobody else is there. -/
def Sequential {σ : Type} (runId : String) (w : World σ) : Label → Prop
  | .call (.run input) => w.Idle ∧ input.runId = runId
  | .call (.signal _) | .call (.processActionCommit _) => w.Idle
  | .call (.write _) | .call (.reconcileOnce _) | .runTurn _ | .restart => False
  | .serve _ b => b.failure.isNone = true
  | .resume _ _ | .turn _ => True

instance {σ : Type} (runId : String) (w : World σ) : (l : Label) → Decidable (Sequential runId w l)
  | .call (.run _) => inferInstanceAs (Decidable (_ ∧ _))
  | .call (.signal _) | .call (.processActionCommit _) => inferInstanceAs (Decidable w.Idle)
  | .call (.write _) | .call (.reconcileOnce _) | .runTurn _ | .restart => .isFalse id
  | .serve _ _ => inferInstanceAs (Decidable (_ = true))
  | .resume _ _ | .turn _ => .isTrue trivial

/-- An action commit that is handled is one of the run. -/
def Label.OfRun (runId : String) : Label → Prop
  | .call (.processActionCommit commit) => commit.runId = runId
  | _ => True

instance (runId : String) : (l : Label) → Decidable (l.OfRun runId)
  | .call (.processActionCommit _) => inferInstanceAs (Decidable (_ = _))
  | .call (.run _) | .call (.signal _) | .call (.write _) | .call (.reconcileOnce _) | .serve _ _
  | .resume _ _ | .runTurn _ | .turn _ | .restart => .isTrue trivial

section
variable {σ : Type} {K : Kernel σ} {runId : String} {w : World σ} {i : Nat}

/-- The call is the only one that may be under way, and is where it should be. -/
structure Attends (runId : String) (w : World σ) (i : Nat) : Prop where
  ofRun : w.process.actor.OfRun runId
  others : ∀ j x, w.calls[j]? = some x → j ≠ i → x.stage? = none
  stands : Stands runId w.services w.process.actor ((w.calls[i]?).getD (.ended (.ok ())))

theorem attends_fresh {journal : Journal} (h : journal.eventsOf runId = []) (store : σ) :
    Attends runId (World.fresh journal store) 0 where
  ofRun := fun _ h => nomatch h
  others := fun _ _ h => nomatch h
  stands := by
    have hnone : activeChildRuns journal runId = [] := by
      rw [activeChildRuns, foldOf, h]
      rfl
    exact .ended ⟨known_of_empty h, hnone.symm⟩

/-- A call that is under way is the one attended to. -/
theorem Attends.only (h : Attends runId w i) {j : Nat} {x : Status} (hx : w.calls[j]? = some x)
    (hstage : x.stage? ≠ none) : j = i ∧ Stands runId w.services w.process.actor x := by
  have hj : j = i := by
    by_contra hne
    exact hstage (h.others j x hx hne)
  subst hj
  have hstands := h.stands
  rw [hx] at hstands
  exact ⟨rfl, hstands⟩

/-- **Between calls the instance shows the child runs of its log.** -/
theorem Attends.aligned (h : Attends runId w i) (hidle : w.Idle) :
    Aligned runId w.services w.process.actor := by
  have hstands := h.stands
  have hnone : ((w.calls[i]?).getD (.ended (.ok ()))).stage? = none := by
    cases hcall : w.calls[i]? with
    | none => rfl
    | some x => exact Option.isNone_iff_eq_none.mp (hidle x (List.mem_of_getElem? hcall))
  generalize (w.calls[i]?).getD (.ended (.ok ())) = x at hstands hnone
  cases hstands with
  | ended haligned => exact haligned
  | _ => cases hnone

/-- One call is where it should be and the others have ended. -/
theorem attends_of_replaces {w' : World σ} {x : Status} (hcalls : Replaces w.calls w'.calls i x)
    (hothers : ∀ j y, w.calls[j]? = some y → j ≠ i → y.stage? = none)
    (hrun : w'.process.actor.OfRun runId)
    (hstands : Stands runId w'.services w'.process.actor x) : Attends runId w' i where
  ofRun := hrun
  others := by
    intro j y hy hne
    rw [hcalls j, if_neg hne] at hy
    exact hothers j y hy hne
  stands := by
    rw [hcalls i, if_pos rfl]
    exact hstands

/-- A call that is made when no other is under way. -/
theorem enter_stands {sv : Services} {p : Process σ} {entry : Entry} {r : Resumed σ}
    (henter : enter p entry = some r) (hrun : p.actor.OfRun runId) (h : Aligned runId sv p.actor)
    (hseq : Sequential runId w (.call entry)) (hof : Label.OfRun runId (.call entry)) :
    r.Stands runId sv := by
  cases entry with
  | run input =>
    have hid : input.runId = runId := hseq.2
    unfold enter at henter
    simp only at henter
    split at henter
    · cases henter
    · cases henter
      refine ⟨fun other hother => ?_, .asks hid (h.of_lastProjection rfl)⟩
      exact (Option.some.inj hother).symm.trans hid
  | signal s =>
    unfold enter at henter
    simp only at henter
    split at henter
    · cases henter
      exact ⟨hrun, .ended (h.of_lastProjection rfl)⟩
    · cases henter
      exact handleSignals_stands hrun h [s]
  | processActionCommit commit =>
    cases henter
    rcases processActionCommit_cases commit none with ⟨r, hend⟩ | ⟨offset, hawait⟩
    · rw [hend]
      exact ⟨hrun, .ended h⟩
    · rw [hawait]
      have hcalm : (Stage.catchingUp ⟨commit, offset, none⟩).Calm runId := hof
      exact ⟨hrun, .asks hcalm h⟩
  | write commit => exact hseq.elim
  | reconcileOnce runIds => exact hseq.elim

theorem Sequential.idle {entry : Entry} (h : Sequential runId w (.call entry)) : w.Idle := by
  cases entry with
  | run input => exact h.1
  | signal s => exact h
  | processActionCommit commit => exact h
  | write commit => exact h.elim
  | reconcileOnce runIds => exact h.elim

/-- **One step of a sequence.** -/
theorem Attends.step (h : Attends runId w i) {l : Label} (hseq : Sequential runId w l)
    (hof : l.OfRun runId) : ∃ i, Attends runId (w.step K l) i := by
  have htaken := step_taken K w l
  generalize w.step K l = w' at htaken
  cases htaken with
  | idle => exact ⟨i, h⟩
  | @called entry r henter =>
    have hr := enter_stands henter h.ofRun (h.aligned hseq.idle) hseq hof
    refine ⟨w.calls.length, attends_of_replaces (replaces_append _ _) ?_ hr.ofRun hr.stands⟩
    exact fun j y hy _ => Option.isNone_iff_eq_none.mp (hseq.idle y (List.mem_of_getElem? hy))
  | @served j b st reply services hcall hanswer =>
    obtain ⟨rfl, hstands⟩ := h.only hcall (by simp [Status.stage?])
    have hb : b.failure = none := Option.isNone_iff_eq_none.mp hseq
    refine ⟨j, attends_of_replaces (replaces_set hcall _) h.others h.ofRun ?_⟩
    exact hstands.served hb hanswer
  | @resumed j m st reply hcall =>
    obtain ⟨rfl, hstands⟩ := h.only hcall (by simp [Status.stage?])
    have hr := Stands.resumed (K := K) m h.ofRun hstands
    exact ⟨j, attends_of_replaces (replaces_set hcall _) h.others hr.ofRun hr.stands⟩
  | startedTurn => exact hseq.elim
  | movedTurn => exact ⟨i, h.ofRun, h.others, h.stands⟩
  | restarted _ => exact hseq.elim

end
end AgentKernel.Workflow
