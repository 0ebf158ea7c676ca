import AgentKernel.Turns.Gate
import AgentKernel.Workflow.Decisions
import AgentKernel.Workflow.Solo

/-! Side effects and dispatchable runs.

A projection says whether its run may dispatch. `process_action_commit` reads it and passes
it on to the recovery gate, but neither the call nor the turn it starts looks at the flag.
Here the call of a commit is attended alone, to its end: what it appends and whether it
invokes the executor follows from what its turn is started with (`side_effects_held_back_iff`). -/
namespace AgentKernel.Workflow
open Lib Dedupe Turns Events Projection Reconcile

/-! ### What facts make of a run -/

/-- The events of a commit as the fold takes them. -/
def keptEvents (j : Journal) (commit : ActionCommit) : List RuntimeEvent :=
  (numberedFrom (j.lastOffset commit.runId + 1) commit.events).filter
    (fun e => e.eventAuthority ≠ .derivedDiagnostic)

theorem foldOf_append (j : Journal) (commit : ActionCommit) :
    foldOf (j.append commit) commit.runId =
      run applyProjectionEvent (foldOf j commit.runId) (keptEvents j commit) := by
  unfold foldOf keptEvents
  rw [j.eventsOf_append, if_pos rfl, List.filter_append, foldProjection_append]

theorem foldOf_coherent (j : Journal) (runId : String) : Coherent (foldOf j runId) :=
  foldProjection_coherent runId _

/-- Waiting for someone, or recovering. -/
def Suspended (p : RunProjection) : Prop :=
  p.lifecycleState = .waitingExternal ∨ p.lifecycleState = .recovering

instance (p : RunProjection) : Decidable (Suspended p) :=
  inferInstanceAs (Decidable (p.lifecycleState = .waitingExternal ∨ p.lifecycleState = .recovering))

theorem Suspended.not_ready {p : RunProjection} (h : Suspended p) (hcoherent : Coherent p) :
    p.readyForDispatch = false := by
  apply eq_false_of_ne_true
  intro hready
  rcases hcoherent.ready.mp hready with hstate | hstate <;> rcases h with h | h
  all_goals
    rw [h] at hstate
    cases hstate

/-- The fact of a turn that was stopped wakes a suspended run. -/
theorem Suspended.woken {p : RunProjection} (h : Suspended p) {e : RuntimeEvent}
    (he : e.eventType = "run.ready") :
    (applyProjectionEvent p e).readyForDispatch = true := by
  have hconflict : isLowerPriorityOperationalConflict p e = false := by
    unfold isLowerPriorityOperationalConflict
    rw [he, show eventOperationalPriority "run.ready" = none from rfl]
    split
    · rename_i heq
      cases heq
    · rfl
  have hfree : blockedByTerminalOrPriority p e = false := by
    unfold blockedByTerminalOrPriority
    rw [hconflict]
    rcases h with h | h <;> rw [h] <;> rfl
  have htransition : (resolveProjectionTransition p e).1 = ⟨.ready, false, true, none⟩ := by
    unfold resolveProjectionTransition
    rw [hfree, he]
    rfl
  show (resolveProjectionTransition p e).1.readyForDispatch = true
  rw [htransition]

/-- The facts of recovery leave a run that is not ready as it is in that. -/
theorem applyProjectionEvent_recovery {p : RunProjection} (h : p.readyForDispatch = false)
    {e : RuntimeEvent} (mode : RecoveryMode) (he : e.eventType = recoveryEventType mode) :
    (applyProjectionEvent p e).readyForDispatch = false := by
  show (resolveProjectionTransition p e).1.readyForDispatch = false
  unfold resolveProjectionTransition
  split
  · exact h
  · rw [he]
    cases mode <;> rfl

/-! ### A call attended with any ports that do not fail -/

section
variable {σ : Type} {K : Kernel σ} {sv sv' : Services} {p : Process σ} {x : Status}

/-- Where the call is after its awaits. -/
def Leads (K : Kernel σ) (ports : List Await) (sv : Services) (p : Process σ) (x : Status)
    (Q : Services → Process σ → Status → Prop) : Prop :=
  ∀ w i, At w i sv p x →
    ∃ sv' p' x', At (run (World.step K) w (awaited i ports)) i sv' p' x' ∧ Q sv' p' x'

variable {Q : Services → Process σ → Status → Prop} {ports : List Await}

theorem Leads.nil (hQ : Q sv p x) : Leads K [] sv p x Q := fun _ _ hat => ⟨sv, p, x, hat, hQ⟩

theorem Leads.ended {r : Except Raised Unit} (hQ : Q sv p (.ended r)) :
    Leads K ports sv p (.ended r) Q :=
  fun _ _ hat => ⟨sv, p, _, hat.ended ports, hQ⟩

/-- One await. -/
theorem Leads.cons {a : Await} {st : Stage} {reply : st.Reply} {r : Resumed σ}
    (hresume : resume K a.moment p st reply = r)
    (hanswer : sv.answer a.behaviour p.engine.turns st.request = some (reply, sv'))
    (hrest : Leads K ports sv' r.process r.next.status Q) :
    Leads K (a :: ports) sv p (.awaiting st) Q := by
  subst hresume
  intro w i hat
  have hgo := hat.go (K := K) a hanswer
  have hlabels : awaited i (a :: ports) =
      [.serve i a.behaviour, .resume i a.moment] ++ awaited i ports := rfl
  rw [hlabels, run_append]
  exact hrest _ i hgo

/-! ### Up to the turn -/

/-- A call for this commit comes to start a turn for its action. -/
structure Decides (sv : Services) (q : Processing) (action : Action) : Prop where
  passes : assertNoDerivedDiagnosticAuthorityInput q.commit = .ok ()
  offset : lastCommitOffset q.commit = .ok q.offset
  ready : q.offset ≤ (foldOf sv.journal q.commit.runId).projectedOffset
  unmarked : q.fingerprint ∉ sv.fingerprints
  action : q.commit.action = some action

def Processing.turnInput (q : Processing) : TurnInput :=
  { runId := q.commit.runId
    throughOffset := q.offset
    basedOnOffset := q.offset
    triggerType := .signal }

/-- Where the first four awaits of a call lead. -/
inductive Opened (K : Kernel σ) (sv : Services) (p : Process σ) (q : Processing) :
    Services → Process σ → Status → Prop where
  | turning {sv' : Services} {p' : Process σ} {action : Action} {projection : RunProjection} :
    Decides sv q action → sv'.journal = sv.journal →
    p'.engine = { p.engine with
      turns := p.engine.turns ++ [Turn.start K.engine q.turnInput (some action)] } →
    Opened K sv p q sv' p' (.awaiting (.turning ⟨q, projection, action⟩ p.engine.turns.length))
  | ended {sv' : Services} {p' : Process σ} {r : Except Raised Unit} :
    (∀ action, ¬ Decides sv q action) → sv'.journal = sv.journal → p'.engine = p.engine →
    Opened K sv p q sv' p' (.ended r)

/-- The services have the log and the fingerprints they had. -/
structure Untouched (sv sv' : Services) : Prop where
  journal : sv'.journal = sv.journal
  fingerprints : sv'.fingerprints = sv.fingerprints
  upToDate : sv'.UpToDate

theorem caughtUp_answered (h : sv.UpToDate) {b : Behaviour} (hb : b.failure = none)
    (turns : List Turn) (runId : String) (offset : Int) :
    ∃ projection sv', sv.answer b turns (.catchUp runId offset) = some (.ok projection, sv') ∧
      Untouched sv sv' := by
  obtain ⟨projection, sv', hanswer, hdate, hjournal⟩ := asks_answered h b hb turns
    (show (Request.catchUp runId offset).asks = true from rfl)
  have hfingerprints := answer_fingerprints hanswer (fun f => nofun)
  exact ⟨projection, sv', hanswer, hjournal, hfingerprints, hdate⟩

theorem readiness_answered (h : sv.UpToDate) {b : Behaviour} (hb : b.failure = none)
    (turns : List Turn) (runId : String) (offset : Int) :
    ∃ sv', sv.answer b turns (.readiness runId offset) =
        some (.ok (decide ((foldOf sv.journal runId).projectedOffset ≥ offset)), sv') ∧
      Untouched sv sv' := by
  obtain ⟨bound, hbound⟩ := h runId
  have hresumes := project_resumes hbound none
  simp only at hresumes
  have hend : max bound (sv.boundOf runId none) = sv.journal.lastOffset runId :=
    Int.max_eq_right hbound.reached
  rw [hend, ← foldOf_eq_replay] at hresumes
  have hanswer : sv.answer b turns (.readiness runId offset) =
      some (.ok (decide ((foldOf sv.journal runId).projectedOffset ≥ offset)),
        { sv with projections := sv.projections.set runId (foldOf sv.journal runId) }) := by
    rw [answer_healthy hb]
    simp only [Services.perform, hresumes]
  exact ⟨_, hanswer, rfl, rfl, (h.project hresumes).1⟩

section
variable {q : Processing} (hdelivery : q.delivery = none)
  (hpasses : assertNoDerivedDiagnosticAuthorityInput q.commit = .ok ())
  (hoffset : lastCommitOffset q.commit = .ok q.offset)

include hdelivery in
theorem processed_over (m : Moment) :
    processed K m p q.delivery = { process := p, next := .end (.ok ()) } := by
  rw [hdelivery]
  rfl

include hdelivery hpasses hoffset in
theorem leads_marking {sv₀ : Services} {p₀ : Process σ} (hkept : Untouched sv₀ sv)
    (hengine : p.engine = p₀.engine)
    (hready : q.offset ≤ (foldOf sv₀.journal q.commit.runId).projectedOffset)
    (hunmarked : q.fingerprint ∉ sv₀.fingerprints) {projection : RunProjection} {a : Await}
    (ha : a.behaviour.failure = none) :
    Leads K [a] sv p (.awaiting (.marking q projection)) (Opened K sv₀ p₀ q) := by
  cases haction : q.commit.action with
  | none =>
    have hresume : resume K a.moment p (.marking q projection) (.ok ()) =
        { process := p, next := .end (.ok ()) } := by
      unfold resume
      simp only [haction]
      exact processed_over hdelivery a.moment
    apply Leads.cons hresume (answer_healthy ha _ _)
    refine .ended (.ended (fun action hdecides => ?_) hkept.journal hengine)
    have hsome := hdecides.action
    rw [haction] at hsome
    cases hsome
  | some action =>
    have hresume : resume K a.moment p (.marking q projection) (.ok ()) =
        startTurn K p ⟨q, projection, action⟩ := by
      unfold resume
      simp only [haction]
    apply Leads.cons hresume (answer_healthy ha _ _)
    apply Leads.nil
    show Opened K sv₀ p₀ q _ _ (.awaiting (.turning _ p.engine.turns.length))
    rw [hengine]
    refine .turning ⟨hpasses, hoffset, hready, hunmarked, haction⟩ hkept.journal ?_
    rw [← hengine]
    rfl

include hdelivery hpasses hoffset in
theorem leads_lookingUp {sv₀ : Services} {p₀ : Process σ} (hkept : Untouched sv₀ sv)
    (hengine : p.engine = p₀.engine)
    (hready : q.offset ≤ (foldOf sv₀.journal q.commit.runId).projectedOffset)
    {projection : RunProjection} {a₁ a₂ : Await} (h₁ : a₁.behaviour.failure = none)
    (h₂ : a₂.behaviour.failure = none) :
    Leads K [a₁, a₂] sv p (.awaiting (.lookingUp q projection)) (Opened K sv₀ p₀ q) := by
  have hanswer : sv.answer a₁.behaviour p.engine.turns (.seen q.fingerprint) =
      some (.ok (decide (q.fingerprint ∈ sv₀.fingerprints)), sv) := by
    rw [answer_healthy h₁, ← hkept.fingerprints]
    rfl
  by_cases hmarked : q.fingerprint ∈ sv₀.fingerprints
  · rw [decide_eq_true hmarked] at hanswer
    have hresume : resume K a₁.moment p (.lookingUp q projection) (.ok true) =
        { process := p, next := .end (.ok ()) } := processed_over hdelivery a₁.moment
    apply Leads.cons hresume hanswer
    exact .ended (.ended (fun action hdecides => hdecides.unmarked hmarked) hkept.journal hengine)
  · rw [decide_eq_false hmarked] at hanswer
    apply Leads.cons rfl hanswer
    exact leads_marking hdelivery hpasses hoffset hkept hengine hready hmarked h₂

include hdelivery hpasses hoffset in
/-- **What comes of the first awaits**, over services that do not fail. -/
theorem leads_catchingUp (hdate : sv.UpToDate) {a₁ a₂ a₃ a₄ : Await}
    (h₁ : a₁.behaviour.failure = none) (h₂ : a₂.behaviour.failure = none)
    (h₃ : a₃.behaviour.failure = none) (h₄ : a₄.behaviour.failure = none) :
    Leads K [a₁, a₂, a₃, a₄] sv p (.awaiting (.catchingUp q)) (Opened K sv p q) := by
  obtain ⟨projection, sv₁, hcaught, hkept₁⟩ :=
    caughtUp_answered hdate h₁ p.engine.turns q.commit.runId q.offset
  apply Leads.cons rfl hcaught
  let caughtUp : Process σ :=
    { p with actor := { p.actor with lastProjection := some projection } }
  obtain ⟨sv₂, hreadiness, hkept₂⟩ :=
    readiness_answered hkept₁.upToDate h₂ caughtUp.engine.turns q.commit.runId q.offset
  have hkept : Untouched sv sv₂ :=
    { journal := hkept₂.journal.trans hkept₁.journal
      fingerprints := hkept₂.fingerprints.trans hkept₁.fingerprints
      upToDate := hkept₂.upToDate }
  rw [hkept₁.journal] at hreadiness
  by_cases hready : q.offset ≤ (foldOf sv.journal q.commit.runId).projectedOffset
  · rw [decide_eq_true hready] at hreadiness
    apply Leads.cons rfl hreadiness
    have hengine : caughtUp.engine = p.engine := rfl
    exact leads_lookingUp hdelivery hpasses hoffset hkept hengine hready h₃ h₄
  · rw [decide_eq_false hready] at hreadiness
    have hresume : resume K a₂.moment caughtUp (.readying q projection) (.ok false) =
        { process := caughtUp, next := .end (.ok ()) } := processed_over hdelivery a₂.moment
    apply Leads.cons hresume hreadiness
    exact .ended (.ended (fun action hdecides => hready hdecides.ready) hkept.journal rfl)

include hdelivery hpasses hoffset in
theorem leads_opening (hdate : sv.UpToDate) (hopens : ports.length = 4)
    (hhealthy : ∀ a ∈ ports, a.behaviour.failure = none) :
    Leads K ports sv p (.awaiting (.catchingUp q)) (Opened K sv p q) := by
  obtain ⟨a₁, a₂, a₃, a₄, rfl⟩ := List.length_eq_four.mp hopens
  simp only [List.forall_mem_cons] at hhealthy
  obtain ⟨h₁, h₂, h₃, h₄, -⟩ := hhealthy
  exact leads_catchingUp hdelivery hpasses hoffset hdate h₁ h₂ h₃ h₄

end

/-! ### From the turn to the end -/

/-- What a call appends after a turn that did not come to the executor. -/
inductive Reported (j : Journal) (runId : String) : Gate → Journal → Prop where
  /-- What is no `Exception` ends the call. -/
  | exited : Reported j runId .raises j
  | recovered {offset : Int} {decision : RecoveryDecision} {causedBy now : String} :
    Reported j runId .raises (j.append (recoveryCommit runId offset decision causedBy now))
  | stopped {offset : Int} {result : TurnResult} {causedBy now : String} : result.Stopped →
    Reported j runId .stops (j.append (turnOutcomeCommit runId offset result causedBy now))

/-- Recovery makes no run ready. -/
theorem Reported.unready {j j' : Journal} {runId : String} (h : Reported j runId .raises j')
    (hnot : (foldOf j runId).readyForDispatch = false) :
    (foldOf j' runId).readyForDispatch = false := by
  cases h with
  | exited => exact hnot
  | @recovered offset decision causedBy now =>
    obtain ⟨e, hkept, htype⟩ : ∃ e,
        keptEvents j (recoveryCommit runId offset decision causedBy now) = [e] ∧
          e.eventType = recoveryEventType decision.mode := ⟨_, rfl, rfl⟩
    have hfold := foldOf_append j (recoveryCommit runId offset decision causedBy now)
    rw [hkept, run_cons, run_nil] at hfold
    change foldOf _ runId = applyProjectionEvent (foldOf j runId) e at hfold
    rw [hfold]
    exact applyProjectionEvent_recovery hnot decision.mode htype

/-- A turn that was stopped makes a suspended run ready. -/
theorem Reported.woken {j j' : Journal} {runId : String} (h : Reported j runId .stops j')
    (hsuspended : Suspended (foldOf j runId)) : (foldOf j' runId).readyForDispatch = true := by
  cases h with
  | @stopped offset result causedBy now hstopped =>
    obtain ⟨e, hkept, htype⟩ : ∃ e,
        keptEvents j (turnOutcomeCommit runId offset result causedBy now) = [e] ∧
          e.eventType = turnOutcomeEventType result.outcomeKind := ⟨_, rfl, rfl⟩
    have hfold := foldOf_append j (turnOutcomeCommit runId offset result causedBy now)
    rw [hkept, run_cons, run_nil] at hfold
    change foldOf _ runId = applyProjectionEvent (foldOf j runId) e at hfold
    rw [hfold]
    apply hsuspended.woken
    rw [htype]
    rcases hstopped.kind with hkind | hkind <;> rw [hkind] <;> rfl

/-- The call is over. -/
structure Over (j : Journal) (e : System σ) (runId : String) (G : Gate) (sv : Services)
    (p : Process σ) (x : Status) : Prop where
  ended : ∃ r, x = .ended r
  reported : Reported j runId G sv.journal
  engine : p.engine = e

section
variable {a : Acting} (hdelivery : a.processing.delivery = none) {err : PyError}

/-- A recovery round is recorded, and the call raises what brought it there. -/
theorem leads_recovering {decision : RecoveryDecision} {offset : Int} {causedBy now : String}
    {a₁ a₂ : Await} (h₁ : a₁.behaviour.failure = none) (h₂ : a₂.behaviour.failure = none) :
    Leads K (a₁ :: a₂ :: ports) sv p (.awaiting (.recovering a (.failed err) decision
        (recoveryCommit a.processing.commit.runId offset decision causedBy now)))
      (Over sv.journal p.engine a.processing.commit.runId .raises) := by
  have hanswer := append_answer sv h₁ p.engine.turns
    (recoveryCommit a.processing.commit.runId offset decision causedBy now) rfl
  cases hlog : K.hasRecoveryOutcomes with
  | false =>
    have hresume : resume K a₁.moment p (.recovering a (.failed err) decision
        (recoveryCommit a.processing.commit.runId offset decision causedBy now)) (.ok ()) =
          { process := p, next := .end (.error (.exception err)) } := by
      unfold resume
      simp only [hlog]
      rfl
    apply Leads.cons hresume hanswer
    exact .ended ⟨⟨_, rfl⟩, .recovered, rfl⟩
  | true =>
    have hresume : resume K a₁.moment p (.recovering a (.failed err) decision
        (recoveryCommit a.processing.commit.runId offset decision causedBy now)) (.ok ()) =
          { process := p
            next := .await (.settling a (.failed err)
              (recoveryOutcome a.processing.commit.runId (Round.offset (.failed err) a.processing)
                decision a.action.actionId a₁.moment.now)) } := by
      unfold resume
      simp only [hlog]
      rfl
    apply Leads.cons hresume hanswer
    apply Leads.cons rfl (answer_healthy h₂ _ _)
    exact .ended ⟨⟨_, rfl⟩, .recovered, rfl⟩

/-- **A recovery that nobody disturbs.** -/
theorem leads_gateBefore {a₁ a₂ a₃ a₄ a₅ : Await} (h₁ : a₁.behaviour.failure = none)
    (h₂ : a₂.behaviour.failure = none) (h₃ : a₃.behaviour.failure = none)
    (h₄ : a₄.behaviour.failure = none) (h₅ : a₅.behaviour.failure = none) :
    Leads K (a₁ :: a₂ :: a₃ :: a₄ :: a₅ :: ports) sv p (.awaiting (.gateBefore a (.failed err)))
      (Over sv.journal p.engine a.processing.commit.runId .raises) := by
  let before := Services.latestRunOffset (sv.journal.load a.processing.commit.runId 0)
  let decision := a₂.behaviour.decision
  have hreadOnly : assertRecoveryGateIsReadOnly before before = .ok () := by
    unfold assertRecoveryGateIsReadOnly
    rw [if_neg (not_not_intro rfl)]
  have hresume : resume K a₃.moment p (.gateAfter a (.failed err) before decision) (.ok before) =
      { process := p
        next := .await (.recovering a (.failed err) decision
          (recoveryCommit a.processing.commit.runId (Round.offset (.failed err) a.processing)
            decision a.action.actionId a₃.moment.now)) } := by
    unfold resume
    simp only [hreadOnly, recoveryEventType_allowed]
  apply Leads.cons rfl (answer_healthy h₁ _ _)
  apply Leads.cons rfl (answer_healthy h₂ _ _)
  refine .cons hresume (answer_healthy h₃ _ _) ?_
  exact leads_recovering h₄ h₅

end

/-- How a turn ended is what its call is told. -/
def toldOf : TurnOutcome → Except Raised TurnResult
  | .returned result => .ok result
  | .raised r => .error r

theorem turn_answered (sv : Services) (b : Behaviour) {turns : List Turn} {k : Nat} {t : Turn}
    {o : TurnOutcome} (ht : turns[k]? = some t) (ho : t.progress = .finished o) :
    sv.answer b turns (.turn k) = some (toldOf o, sv) := by
  obtain ⟨engine, input, events, progress⟩ := t
  obtain rfl : progress = .finished o := ho
  show sv.perform b turns (.turn k) = _
  simp only [Services.perform, ht]
  cases o <;> rfl

section
variable {a : Acting} (hdelivery : a.processing.delivery = none) {result : TurnResult}

include hdelivery in
/-- The outcome of a turn that was stopped is recorded. -/
theorem leads_recordingOutcome (hstopped : result.Stopped) {offset : Int} {causedBy now : String}
    {a₁ : Await} (h₁ : a₁.behaviour.failure = none) :
    Leads K (a₁ :: ports) sv p (.awaiting (.recordingOutcome a result
        (turnOutcomeCommit a.processing.commit.runId offset result causedBy now)))
      (Over sv.journal p.engine a.processing.commit.runId .stops) := by
  have hsingle : assertSingleDispatchAttemptInTurn result = .ok () := by
    have hnone := hstopped.undispatched
    unfold dispatches at hnone
    unfold assertSingleDispatchAttemptInTurn
    rw [hnone, if_neg (by decide)]
  have hkind : result.outcomeKind ≠ .recoveryPending := by
    rcases hstopped.kind with hkind | hkind <;> rw [hkind] <;> decide
  have hresume : resume K a₁.moment p (.recordingOutcome a result
      (turnOutcomeCommit a.processing.commit.runId offset result causedBy now)) (.ok ()) =
        { process := p, next := .end (.ok ()) } := by
    unfold resume
    simp only [hsingle, if_neg hkind]
    exact processed_over hdelivery a₁.moment
  apply Leads.cons hresume (append_answer sv h₁ p.engine.turns _ rfl)
  exact .ended ⟨⟨_, rfl⟩, .stopped hstopped, rfl⟩

include hdelivery in
/-- The intent is written first where there is a log for it. -/
theorem leads_returned (hstopped : result.Stopped) (m : Moment) {a₁ a₂ : Await}
    (h₁ : a₁.behaviour.failure = none) (h₂ : a₂.behaviour.failure = none) :
    Leads K (a₁ :: a₂ :: ports) sv p (turnReturned K m p a result).next.status
      (Over sv.journal p.engine a.processing.commit.runId .stops) := by
  unfold turnReturned
  split
  · exact leads_recordingOutcome hdelivery hstopped h₁
  · split
    · apply Leads.cons rfl (answer_healthy h₁ _ _)
      exact leads_recordingOutcome hdelivery hstopped h₂
    · exact leads_recordingOutcome hdelivery hstopped h₁

theorem turnReturned_process (m : Moment) : (turnReturned K m p a result).process = p := by
  unfold turnReturned
  split
  · rfl
  · split <;> rfl

end

/-- **A call whose turn did not come to the executor** ends with the fact of it. -/
theorem leads_turning {a : Acting} (hdelivery : a.processing.delivery = none) {k : Nat} {t : Turn}
    {G : Gate} (ht : p.engine.turns[k]? = some t) (hended : t.Ended G) (hclosed : G ≠ .opens)
    {a₁ a₂ a₃ a₄ a₅ a₆ : Await} (h₂ : a₂.behaviour.failure = none)
    (h₃ : a₃.behaviour.failure = none) (h₄ : a₄.behaviour.failure = none)
    (h₅ : a₅.behaviour.failure = none) (h₆ : a₆.behaviour.failure = none) :
    Leads K (a₁ :: a₂ :: a₃ :: a₄ :: a₅ :: a₆ :: ports) sv p (.awaiting (.turning a k))
      (Over sv.journal p.engine a.processing.commit.runId G) := by
  cases G with
  | opens => exact absurd rfl hclosed
  | raises =>
    obtain ⟨r, hp⟩ := hended
    have hanswer := turn_answered sv a₁.behaviour ht hp
    cases r with
    | exit name =>
      refine .cons rfl hanswer ?_
      exact .ended ⟨⟨_, rfl⟩, .exited, rfl⟩
    | exception err =>
      refine .cons rfl hanswer ?_
      exact leads_gateBefore h₂ h₃ h₄ h₅ h₆
  | stops =>
    obtain ⟨result, hp, hstopped⟩ := hended
    have hanswer := turn_answered sv a₁.behaviour ht hp
    have hresume : resume K a₁.moment p (.turning a k) (.ok result) =
        turnReturned K a₁.moment p a result := rfl
    refine .cons hresume hanswer ?_
    rw [turnReturned_process]
    exact leads_returned hdelivery hstopped a₁.moment h₂ h₃

theorem leads_closing {a : Acting} (hcloses : 6 ≤ ports.length)
    (hhealthy : ∀ a ∈ ports, a.behaviour.failure = none) (hdelivery : a.processing.delivery = none)
    {k : Nat} {t : Turn} {G : Gate} (ht : p.engine.turns[k]? = some t) (hended : t.Ended G)
    (hclosed : G ≠ .opens) :
    Leads K ports sv p (.awaiting (.turning a k))
      (Over sv.journal p.engine a.processing.commit.runId G) := by
  match ports, hcloses with
  | a₁ :: a₂ :: a₃ :: a₄ :: a₅ :: a₆ :: rest, _ =>
    simp only [List.forall_mem_cons] at hhealthy
    obtain ⟨-, h₂, h₃, h₄, h₅, h₆, -⟩ := hhealthy
    exact leads_turning hdelivery ht hended hclosed h₂ h₃ h₄ h₅ h₆

/-! ### The whole call -/

theorem At.turned {w : World σ} {i : Nat} (h : At w i sv p x) (labels : List Turns.Label) :
    At (run (World.step K) w (labels.map .turn)) i sv
      { p with engine := run (System.step K.outbox.port K.digest) p.engine labels } x := by
  induction labels generalizing w p with
  | nil => exact h
  | cons l rest ih =>
    obtain ⟨rfl, rfl, hcall⟩ := h
    have hone : At (w.step K (.turn l)) i w.services
        { w.process with engine := w.process.engine.step K.outbox.port K.digest l } x :=
      ⟨rfl, rfl, hcall⟩
    rw [List.map_cons, run_cons, run_cons]
    exact ih hone

theorem executions_world_step {w : World σ} (l : Label) :
    w.process.engine.executions ≤ (w.step K l).process.engine.executions := by
  have hstep := step_engine K w l
  generalize (w.step K l).process.engine = e at hstep
  cases hstep with
  | moved => exact executions_step _
  | _ => exact Nat.le_refl _

theorem executions_world_run {w : World σ} (labels : List Label) :
    w.process.engine.executions ≤ (run (World.step K) w labels).process.engine.executions :=
  run_invariant
    (I := fun w' : World σ => w.process.engine.executions ≤ w'.process.engine.executions)
    (fun _ l h => Nat.le_trans h (executions_world_step l)) (Nat.le_refl _) labels

end

/-- How a call of a commit is attended: its awaits before its turn, what its turn meets, and
its awaits after it. -/
structure Attendance where
  opening : List Await
  ports : Ports
  closing : List Await
  opens : opening.length = 4
  closes : 6 ≤ closing.length
  healthy : ∀ a ∈ opening ++ closing, a.behaviour.failure = none
  admits : ports.Admits

section
variable {σ : Type} (K : Kernel σ)

/-- The turn the call starts, if it starts one. -/
def Attendance.turn (A : Attendance) (w : World σ) : Turns.Label :=
  ⟨w.process.engine.turns.length, A.ports⟩

/-- The commit is processed, and nothing else goes on. -/
def decided (w : World σ) (commit : ActionCommit) (A : Attendance) : World σ :=
  run (World.step K) (w.step K (.call (.processActionCommit commit)))
    (awaited w.calls.length A.opening ++ (List.replicate 8 (A.turn w)).map .turn ++
      awaited w.calls.length A.closing)

end

section
variable {σ : Type} {K : Kernel σ} {w : World σ} {commit : ActionCommit} {offset : Int}
  {A : Attendance}

theorem enter_commit (hpasses : assertNoDerivedDiagnosticAuthorityInput commit = .ok ())
    (hoffset : lastCommitOffset commit = .ok offset) :
    enter w.process (.processActionCommit commit) = some
      { process := w.process, next := .await (.catchingUp ⟨commit, offset, none⟩) } := by
  unfold enter processActionCommit
  simp only [hpasses, hoffset]

/-- The call up to its turn. -/
theorem decided_opened (hdate : w.services.UpToDate)
    (hpasses : assertNoDerivedDiagnosticAuthorityInput commit = .ok ())
    (hoffset : lastCommitOffset commit = .ok offset) (A : Attendance) :
    ∃ sv p x, At (run (World.step K) (w.step K (.call (.processActionCommit commit)))
      (awaited w.calls.length A.opening)) w.calls.length sv p x ∧
      Opened K w.services w.process ⟨commit, offset, none⟩ sv p x := by
  have hat := at_launched (K := K) (enter_commit (w := w) hpasses hoffset)
  have hhealthy : ∀ a ∈ A.opening, a.behaviour.failure = none :=
    fun a ha => A.healthy a (List.mem_append_left _ ha)
  exact leads_opening (q := ⟨commit, offset, none⟩) rfl hpasses hoffset hdate A.opens hhealthy
    _ _ hat

/-- A call that is over before its turn leaves the rest to nobody. -/
theorem decided_over {sv : Services} {p : Process σ} {r : Except Raised Unit}
    (hat : At (run (World.step K) (w.step K (.call (.processActionCommit commit)))
      (awaited w.calls.length A.opening)) w.calls.length sv p (.ended r))
    (hengine : p.engine = w.process.engine) :
    (decided K w commit A).services = sv ∧
      (decided K w commit A).process.engine.executions = w.process.engine.executions := by
  have hnone : p.engine.turns[w.process.engine.turns.length]? = none := by
    rw [hengine]
    exact List.getElem?_eq_none (Nat.le_refl _)
  have hidle : ∀ n, run (System.step K.outbox.port K.digest) p.engine
      (List.replicate n (A.turn w)) = p.engine := by
    intro n
    induction n with
    | zero => rfl
    | succ n ih =>
      have hone : p.engine.step K.outbox.port K.digest (A.turn w) = p.engine := by
        unfold System.step Attendance.turn
        simp only [hnone]
      rw [List.replicate_succ, run_cons, hone, ih]
  have hturned := hat.turned (K := K) (List.replicate 8 (A.turn w))
  rw [hidle] at hturned
  have hclosed := hturned.ended (K := K) A.closing
  rw [← run_append, ← run_append, ← List.append_assoc] at hclosed
  refine ⟨hclosed.services, ?_⟩
  rw [← hengine]
  exact congrArg (fun p => p.engine.executions) hclosed.process

/-- **A call that starts no turn** appends nothing and invokes nothing. -/
theorem decided_unopened (hdate : w.services.UpToDate)
    (hnone : ∀ offset action, ¬ Decides w.services ⟨commit, offset, none⟩ action) (A : Attendance) :
    (decided K w commit A).services.journal = w.services.journal ∧
      (decided K w commit A).process.engine.executions = w.process.engine.executions := by
  have hraised : ∀ r, enter w.process (.processActionCommit commit) = some
      { process := w.process, next := .end (.error r) } →
      (decided K w commit A).services.journal = w.services.journal ∧
        (decided K w commit A).process.engine.executions = w.process.engine.executions := by
    intro r henter
    have hat := (at_launched (K := K) henter).ended (K := K) A.opening
    obtain ⟨hservices, hsame⟩ := decided_over hat rfl
    exact ⟨by rw [hservices], hsame⟩
  cases hpasses : assertNoDerivedDiagnosticAuthorityInput commit with
  | error r =>
    apply hraised r
    unfold enter processActionCommit
    simp only [hpasses]
  | ok u =>
    cases hoffset : lastCommitOffset commit with
    | error r =>
      apply hraised r
      unfold enter processActionCommit
      simp only [hpasses, hoffset]
    | ok offset =>
      obtain ⟨sv, p, x, hat, hopened⟩ := decided_opened hdate hpasses hoffset A
      cases hopened with
      | turning hdecides _ _ => exact absurd hdecides (hnone offset _)
      | ended _ hjournal hengine =>
        obtain ⟨hservices, hsame⟩ := decided_over hat hengine
        exact ⟨by rw [hservices, hjournal], hsame⟩

end

section
variable {S : HealthyStore} {K : Kernel S.State} {w : World S.State} {commit : ActionCommit}
  {offset : Int} {action : Action} {A : Attendance}

/-- What stands between the executor and the turn that is started for a commit. -/
def commitGate (S : HealthyStore) (K : Kernel S.State) (w : World S.State) (commit : ActionCommit)
    (offset : Int) (action : Action) (ports : Ports) : Gate :=
  gate K.digest (S.view w.process.engine.store)
    (Turn.start K.engine (Processing.turnInput ⟨commit, offset, none⟩) (some action)) ports action

/-- **A call that starts a turn** invokes the executor if the gate of its turn opens, and
else appends the fact that it did not. -/
theorem decided_turned (hK : K.outbox.port = S.port) (hdate : w.services.UpToDate)
    (hdecides : Decides w.services ⟨commit, offset, none⟩ action) (A : Attendance) :
    (commitGate S K w commit offset action A.ports = .opens →
      w.process.engine.executions < (decided K w commit A).process.engine.executions) ∧
    (commitGate S K w commit offset action A.ports ≠ .opens →
      (decided K w commit A).process.engine.executions = w.process.engine.executions ∧
      Reported w.services.journal commit.runId (commitGate S K w commit offset action A.ports)
        (decided K w commit A).services.journal) := by
  obtain ⟨sv, p, x, hat, hopened⟩ := decided_opened (K := K) hdate hdecides.passes hdecides.offset A
  cases hopened with
  | ended hnot _ _ => exact absurd hdecides (hnot action)
  | @turning action' projection hdecides' hjournal hengine =>
    obtain rfl : action' = action := Option.some.inj (hdecides'.action.symm.trans hdecides.action)
    have hturned := hat.turned (K := K) (List.replicate 8 (A.turn w))
    rw [← run_append] at hturned
    have ht : p.engine.turns[w.process.engine.turns.length]? = some (Turn.start K.engine
        (Processing.turnInput ⟨commit, offset, none⟩) (some action')) := by
      rw [hengine]
      exact List.getElem?_concat_length
    have hbefore : p.engine.executions = w.process.engine.executions := by
      rw [hengine]
      rfl
    have hgated : (Turn.start K.engine (Processing.turnInput ⟨commit, offset, none⟩)
        (some action')).Gated K.digest (S.view p.engine.store) A.ports
          (commitGate S K w commit offset action' A.ports) := by
      rw [hengine]
      exact gated_start _ _ _ _ _ _
    obtain ⟨hopens, hholds⟩ := gated_run (n := 8) A.admits ht hgated (Nat.le_refl 8)
    rw [hbefore] at hopens hholds
    rw [hK] at hturned
    have hdecided : decided K w commit A = run (World.step K) (run (World.step K)
        (w.step K (.call (.processActionCommit commit)))
        (awaited w.calls.length A.opening ++ (List.replicate 8 (A.turn w)).map .turn))
        (awaited w.calls.length A.closing) := run_append _ _ _ _
    rw [hdecided]
    have hlabel : A.turn w = ⟨w.process.engine.turns.length, A.ports⟩ := rfl
    rw [hlabel] at hturned ⊢
    generalize run (System.step S.port K.digest) p.engine
      (List.replicate 8 ⟨w.process.engine.turns.length, A.ports⟩) = e at hturned hopens hholds
    refine ⟨fun hopen => ?_, fun hclosed => ?_⟩
    · have hafter := executions_world_run (K := K) (w := run (World.step K)
        (w.step K (.call (.processActionCommit commit))) (awaited w.calls.length A.opening ++
          (List.replicate 8 ⟨w.process.engine.turns.length, A.ports⟩).map .turn))
        (awaited w.calls.length A.closing)
      rw [congrArg (fun p => p.engine) hturned.process] at hafter
      exact Nat.lt_of_lt_of_le (hopens hopen) hafter
    · obtain ⟨hsame, t', ht', hended⟩ := hholds hclosed
      have hleads : Leads K A.closing sv { p with engine := e }
          (.awaiting (.turning ⟨⟨commit, offset, none⟩, projection, action'⟩
            w.process.engine.turns.length))
          (Over sv.journal e commit.runId (commitGate S K w commit offset action' A.ports)) :=
        leads_closing A.closes (fun a ha => A.healthy a (List.mem_append_right _ ha)) rfl ht'
          hended hclosed
      obtain ⟨sv', p', x', hend, hover⟩ := hleads _ _ hturned
      have hreported := hover.reported
      rw [hjournal] at hreported
      rw [hend.services, hend.process, hover.engine]
      exact ⟨hsame, hreported⟩

end

/-! ### Side effects of runs that are not ready -/

/-- A new instance over some log, some deduper and some store. -/
def World.onto {σ : Type} (journal : Journal) (marked : List String) (store : σ) : World σ :=
  { World.fresh journal store with services := { journal := journal, fingerprints := marked } }

theorem current_onto {σ : Type} (K : Kernel σ) (journal : Journal) (marked : List String)
    (store : σ) (labels : List Label) :
    Current (run (World.step K) (World.onto journal marked store) labels) := by
  have honto : Current (World.onto journal marked store) :=
    { services := fun runId => ⟨0, upTo_default journal runId⟩
      shown := (current_fresh journal store).shown
      told := (current_fresh journal store).told }
  exact run_invariant (I := Current) (fun _ l h => Current.step h l) honto labels

/-- No side effect, and no suspended run made ready. -/
structure HeldBack {σ : Type} (runId : String) (w w' : World σ) : Prop where
  uninvoked : w'.process.engine.executions = w.process.engine.executions
  unreadied : Suspended (foldOf w.services.journal runId) →
    (foldOf w'.services.journal runId).readyForDispatch = false

/-- **No side effect outside a dispatchable state**, exactly when no turn that a run that is
not ready comes to start gets to the executor, or is stopped while the run is suspended. -/
theorem side_effects_held_back_iff (S : HealthyStore) (K : Kernel S.State)
    (hK : K.outbox.port = S.port) (journal : Journal) (marked : List String) (store : S.State)
    (before : List Label) (commit : ActionCommit) (A : Attendance) :
    let w := run (World.step K) (World.onto journal marked store) before
    (∀ offset p sv, lastCommitOffset commit = .ok offset →
      w.services.project commit.runId (some offset) = .ok (p, sv) → p.readyForDispatch = false →
      HeldBack commit.runId w (decided K w commit A)) ↔
    ∀ offset p sv action, Decides w.services ⟨commit, offset, none⟩ action →
      w.services.project commit.runId (some offset) = .ok (p, sv) → p.readyForDispatch = false →
      commitGate S K w commit offset action A.ports = .raises ∨
        commitGate S K w commit offset action A.ports = .stops ∧
          ¬ Suspended (foldOf w.services.journal commit.runId) := by
  intro w
  have hdate : w.services.UpToDate := (current_onto K journal marked store before).services
  constructor
  · intro h offset p sv action hdecides hproject hnot
    obtain ⟨hsame, hunready⟩ := h offset p sv hdecides.offset hproject hnot
    obtain ⟨hopens, hholds⟩ := decided_turned hK hdate hdecides A
    cases hgate : commitGate S K w commit offset action A.ports with
    | raises => exact .inl rfl
    | opens =>
      have hinvoked := hopens hgate
      omega
    | stops =>
      rw [hgate] at hholds
      refine .inr ⟨rfl, fun hsuspended => ?_⟩
      have hwoken := (hholds (by decide)).2.woken hsuspended
      rw [hunready hsuspended] at hwoken
      cases hwoken
  · intro h offset p sv hoffset hproject hnot
    by_cases hdecides : ∃ action, Decides w.services ⟨commit, offset, none⟩ action
    · obtain ⟨action, hdecides⟩ := hdecides
      obtain ⟨-, hholds⟩ := decided_turned hK hdate hdecides A
      rcases h offset p sv action hdecides hproject hnot with hgate | ⟨hgate, hstanding⟩
      · rw [hgate] at hholds
        obtain ⟨hsame, hreported⟩ := hholds (by decide)
        refine ⟨hsame, fun hsuspended => ?_⟩
        exact hreported.unready (hsuspended.not_ready (foldOf_coherent _ _))
      · rw [hgate] at hholds
        exact ⟨(hholds (by decide)).1, fun hsuspended => absurd hsuspended hstanding⟩
    · have hnone : ∀ offset action, ¬ Decides w.services ⟨commit, offset, none⟩ action := by
        intro offset' action hdecides'
        obtain rfl : offset' = offset := Except.ok.inj (hdecides'.offset.symm.trans hoffset)
        exact hdecides ⟨action, hdecides'⟩
      obtain ⟨hjournal, hsame⟩ := decided_unopened (K := K) hdate hnone A
      refine ⟨hsame, fun hsuspended => ?_⟩
      rw [hjournal]
      exact hsuspended.not_ready (foldOf_coherent _ _)

/-! ### A run that waits for someone -/

namespace Sample

/-- A commit that asks for an action and says nothing of its run. -/
def request : ActionCommit :=
  { commitOf "run" "decision.made" with
    events := [factEvent "run" "decision.made" 2 none]
    action := some (Turns.Sample.action "run" "act") }

/-- The run waits, and an action is decided on. -/
def suspending : List Label :=
  .call (.write (commitOf "run" "run.waiting_external")) :: awaits 0 1 ++
    .call (.write request) :: awaits 1 1

/-- A capability snapshot cannot be built. -/
def unbuildable (kind : ErrorKind) : Ports :=
  { ports unacknowledged with build := fun _ => .error (.exception ⟨kind, ""⟩) }

def attendance (ports : Ports) (admits : ports.Admits) : Attendance :=
  { opening := calms 4 ""
    ports := ports
    closing := calms 6 ""
    opens := rfl
    closes := Nat.le_refl 6
    healthy := fun a ha => by
      rw [List.eq_of_mem_replicate (show a ∈ List.replicate 10 (calm "") from ha)]
      rfl
    admits := admits }

theorem admits (answer : Awaited ExecuteResult) : (ports answer).Admits := fun _ _ => ⟨_, rfl, rfl⟩

theorem unbuildable_admits (kind : ErrorKind) : (unbuildable kind).Admits :=
  fun _ _ => ⟨_, rfl, rfl⟩

def suspended : World InMemoryDedupeStore :=
  run (World.step kernel) (World.onto Journal.empty [] Dict.empty) suspending

theorem suspended_projection : ∃ p sv, suspended.services.project "run" (some 2) = .ok (p, sv) ∧
    p.lifecycleState = .waitingExternal ∧ p.readyForDispatch = false := by
  have hseen : (suspended.services.project "run" (some 2)).toOption.any
      (fun r => r.1.lifecycleState = .waitingExternal && !r.1.readyForDispatch) = true := by
    decide +kernel
  cases hproject : suspended.services.project "run" (some 2) with
  | error e =>
    rw [hproject] at hseen
    cases hseen
  | ok r =>
    rw [hproject] at hseen
    have hboth := Bool.and_eq_true_iff.mp hseen
    exact ⟨r.1, r.2, rfl, of_decide_eq_true hboth.1, Bool.not_eq_true' _ |>.mp hboth.2⟩

theorem suspended_gate : commitGate InMemoryDedupeStore.healthy kernel suspended request 2
    (Turns.Sample.action "run" "act") (unbuildable .runtimeError) = .raises := by
  decide +kernel

end Sample

/-- The run waits, and its turn cannot get a snapshot: recovery is decided on, and the run
waits on. -/
theorem raising_turn_held_back :
    HeldBack "run" Sample.suspended (decided Sample.kernel Sample.suspended Sample.request
      (Sample.attendance (Sample.unbuildable .runtimeError) (Sample.unbuildable_admits _))) := by
  obtain ⟨p, sv, hproject, hstate, hnot⟩ := Sample.suspended_projection
  have hgate := Sample.suspended_gate
  unfold Sample.suspended at *
  have hheld := (side_effects_held_back_iff InMemoryDedupeStore.healthy Sample.kernel rfl
    Journal.empty [] Dict.empty Sample.suspending Sample.request
    (Sample.attendance (Sample.unbuildable .runtimeError) (Sample.unbuildable_admits _))).mpr
  apply hheld ?_ 2 p sv rfl hproject hnot
  intro offset p sv action hdecides _ _
  cases hdecides.offset
  cases hdecides.action
  exact .inl hgate

/-- The run waits, and the executor is invoked for it. The run waits, and a turn that was
stopped makes it ready. -/
theorem suspended_run_dispatched :
    (∃ p sv, Sample.suspended.services.project "run" (some 2) = .ok (p, sv) ∧
      p.lifecycleState = .waitingExternal ∧ p.readyForDispatch = false) ∧
    lastCommitOffset Sample.request = .ok 2 ∧
    Sample.suspended.process.engine.executions = 0 ∧
    (decided Sample.kernel Sample.suspended Sample.request (Sample.attendance
      (Sample.ports Sample.unacknowledged) (Sample.admits _))).process.engine.executions = 1 ∧
    (foldOf (decided Sample.kernel Sample.suspended Sample.request (Sample.attendance
      (Sample.unbuildable .valueError)
      (Sample.unbuildable_admits _))).services.journal "run").readyForDispatch = true := by
  refine ⟨Sample.suspended_projection, rfl, ?_, ?_, ?_⟩
  · decide
  · decide +kernel
  · decide +kernel

end AgentKernel.Workflow
