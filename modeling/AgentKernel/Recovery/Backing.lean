import AgentKernel.Recovery.Gate
import AgentKernel.Workflow.World

/-! What stands behind a compensation decision.

The gate looks for a handler under the class its reason code names, not under the class of the
failed action, and runs one only for a failing action that no input carries. The workflow writes
an outcome by the mode alone. `compensation_backed_iff` puts the three together. -/
namespace AgentKernel.Recovery
open Lib Workflow

/-! ### When the gate comes to a compensation -/

section
variable {G : PlannedRecoveryGate} {B : CircuitBreakerStore}

theorem recoveryModeOf_static {action : RecoveryPlanAction} :
    recoveryModeOf action = .staticCompensation ↔ action = .scheduleCompensation := by
  cases action <;> decide

/-- A class that the reason code names has a handler. -/
def PlannedRecoveryGate.Handled (G : PlannedRecoveryGate) (input : RecoveryInput) : Prop :=
  ∀ registry effectClass, G.compensationRegistry = some registry →
    extractEffectClass input = some effectClass → (registry.get? effectClass).isSome = true

theorem checkCompensation_handled {input : RecoveryInput} (h : G.Handled input)
    (planned : BaseDecision) : G.checkCompensation input planned = planned := by
  unfold PlannedRecoveryGate.checkCompensation
  split
  case h_1 registry effectClass hregistry hclass =>
    have hsome := h registry effectClass hregistry hclass
    rw [if_neg (by simpa [Option.isNone_iff_eq_none, Option.isSome_iff_ne_none] using hsome)]
    rfl
  case h_2 => rfl

theorem checkCompensation_unhandled {input : RecoveryInput} (h : ¬ G.Handled input)
    (planned : BaseDecision) : (G.checkCompensation input planned).mode = .abort ∧
      (G.checkCompensation input planned).compensated = [] := by
  simp only [PlannedRecoveryGate.Handled, not_forall] at h
  obtain ⟨registry, effectClass, hregistry, hclass, hnone⟩ := h
  have hnone : (registry.get? effectClass).isNone = true := by simpa using hnone
  simp only [PlannedRecoveryGate.checkCompensation, hregistry, hclass, hnone, if_true, and_self]

/-- The base decision is a compensation exactly when the plan schedules one and a class the reason
code names has a handler; no handler is ever run for it. -/
theorem base_cases {input : RecoveryInput} {base : BaseDecision} (h : G.base input = .ok base) :
    base.compensated = [] ∧ ∃ plan, G.planner.buildPlanFromInput input = .ok plan ∧
      (base.mode = .staticCompensation ↔ plan.action = .scheduleCompensation ∧ G.Handled input) ∧
      (base.mode = .staticCompensation →
        base.compensationActionId = PlannerHeuristicPolicy.compensationActionId input) := by
  cases hplan : G.planner.buildPlanFromInput input with
  | error e =>
    rw [PlannedRecoveryGate.base, hplan] at h
    cases h
  | ok plan =>
    rw [PlannedRecoveryGate.base, hplan] at h
    obtain rfl := Except.ok.inj h
    dsimp only
    by_cases hschedule : plan.action = .scheduleCompensation
    · have hstatic := recoveryModeOf_static.mpr hschedule
      have hid := G.planner.compensationActionId_of_schedule hplan hschedule
      rw [if_pos hstatic]
      by_cases hhandled : G.Handled input
      · rw [checkCompensation_handled hhandled]
        exact ⟨rfl, plan, rfl, iff_of_true hstatic ⟨hschedule, hhandled⟩, fun _ => hid⟩
      · obtain ⟨hmode, hnone⟩ := checkCompensation_unhandled hhandled
          { mode := recoveryModeOf plan.action
            reason := plan.reason
            compensationActionId := plan.compensationActionId
            escalationChannelRef := plan.escalationChannelRef }
        rw [hmode]
        exact ⟨hnone, plan, rfl, iff_of_false (by decide) (fun hc => hhandled hc.2), fun hc => nomatch hc⟩
    · have hother := fun hc => hschedule (recoveryModeOf_static.mp hc)
      rw [if_neg hother]
      exact ⟨rfl, plan, rfl, iff_of_false hother (fun hc => hschedule hc.1), fun hc => (hother hc).elim⟩

/-- The gate comes to a compensation: the circuit is closed, the plan schedules one, a class that
the reason code names has a handler, and reflection does not take the failure up. -/
def PlannedRecoveryGate.Compensates (G : PlannedRecoveryGate) (s : GateState B)
    (input : RecoveryInput) (checkedAt : ℚ) : Prop :=
  G.isCircuitOpen B s.breaker input.failedEffectClass checkedAt = false ∧
    (∃ plan, G.planner.buildPlanFromInput input = .ok plan ∧ plan.action = .scheduleCompensation) ∧
    G.Handled input ∧ G.shouldReflect input .staticCompensation = false

/-- Reflection never decides for a compensation. -/
theorem decideReflectAndRetry_mode {input : RecoveryInput} {reason : String}
    {reflection : ReflectionAnswer} {d : GateDecision}
    (h : G.decideReflectAndRetry input reason reflection = .ok d) : d.mode ≠ .staticCompensation := by
  rcases PlannedRecoveryGate.decideReflectAndRetry_cases h with rfl | ⟨hmode, _⟩
  · rcases PlannedRecoveryGate.fallbackDecision_mode (G := G) input reason with hmode | hmode
    · rw [hmode]
      decide
    · rw [hmode]
      decide
  · rw [hmode]
    decide

/-- **When the decision is a compensation**, and for which action. -/
theorem decide_static_iff (s : GateState B) (input : RecoveryInput) (reflection : ReflectionAnswer)
    (checkedAt endedAt : ℚ) (id : Option String) :
    (∃ d, (G.decide s input reflection checkedAt endedAt).1 = .ok d ∧ d.mode = .staticCompensation ∧
      d.compensationActionId = id) ↔
      G.Compensates s input checkedAt ∧ PlannerHeuristicPolicy.compensationActionId input = id := by
  have hdecides := G.decides s input reflection checkedAt endedAt
  generalize (G.decide s input reflection checkedAt endedAt).1 = answer at hdecides ⊢
  cases hdecides with
  | turnedAway hopen => simp [PlannedRecoveryGate.Compensates, hopen]
  | unplanned hclosed hbase =>
    refine iff_of_false (fun ⟨d, hd, _⟩ => nomatch hd) ?_
    rintro ⟨⟨_, ⟨plan, hplan, _⟩, _⟩, _⟩
    rw [PlannedRecoveryGate.base, hplan] at hbase
    cases hbase
  | @reflected base hclosed hbase hreflect =>
    obtain ⟨_, plan, hplan, hmode, hid⟩ := base_cases hbase
    refine iff_of_false ?_ ?_
    · rintro ⟨d, hd, hstatic, _⟩
      cases hr : G.decideReflectAndRetry input base.reason reflection with
      | error e =>
        rw [hr] at hd
        cases hd
      | ok d' =>
        rw [hr] at hd
        obtain rfl := Except.ok.inj hd
        exact decideReflectAndRetry_mode hr hstatic
    · rintro ⟨⟨_, ⟨plan', hplan', hschedule⟩, hhandled, hnot⟩, _⟩
      obtain rfl := Except.ok.inj (hplan.symm.trans hplan')
      rw [hmode.mpr ⟨hschedule, hhandled⟩, hnot] at hreflect
      cases hreflect
  | @planned base hclosed hbase hreflect =>
    obtain ⟨_, plan, hplan, hmode, hid⟩ := base_cases hbase
    constructor
    · rintro ⟨d, hd, hstatic, rfl⟩
      obtain rfl := Except.ok.inj hd
      have hbasemode : base.mode = .staticCompensation := hstatic
      obtain ⟨hschedule, hhandled⟩ := hmode.mp hbasemode
      rw [hbasemode] at hreflect
      exact ⟨⟨hclosed, ⟨plan, hplan, hschedule⟩, hhandled, hreflect⟩, (hid hbasemode).symm⟩
    · rintro ⟨⟨_, ⟨plan', hplan', hschedule⟩, hhandled, _⟩, rfl⟩
      obtain rfl := Except.ok.inj (hplan.symm.trans hplan')
      have hstatic := hmode.mpr ⟨hschedule, hhandled⟩
      exact ⟨_, rfl, hstatic, hid hstatic⟩

/-- The handlers run while the gate decides. -/
def PlannedRecoveryGate.handlersRun (G : PlannedRecoveryGate) (s : GateState B)
    (input : RecoveryInput) (checkedAt : ℚ) : List Action :=
  if G.isCircuitOpen B s.breaker input.failedEffectClass checkedAt then []
  else
    match G.base input with
    | .ok base => base.compensated
    | .error _ => []

/-- **None is.** -/
theorem handlersRun_eq_nil (s : GateState B) (input : RecoveryInput) (checkedAt : ℚ) :
    G.handlersRun s input checkedAt = [] := by
  unfold PlannedRecoveryGate.handlersRun
  split
  · rfl
  · cases hbase : G.base input with
    | error e => rfl
    | ok base => exact (base_cases hbase).1

end

/-! ### What the workflow makes of the decision -/

section
variable {σ : Type} (K : Kernel σ) (G : PlannedRecoveryGate) {B : CircuitBreakerStore}

/-- The outcome that is about to be written. -/
def outcome? : Next → Option RecoveryOutcome
  | .await (.settling _ _ outcome) => some outcome
  | _ => none

/-- What the workflow writes about a decision once its events are appended, if anything. -/
def writtenOutcome (m : Moment) (p : Process σ) (a : Acting) (round : Round) (d : GateDecision) :
    Option RecoveryOutcome :=
  outcome? (resume K m p (.recovering a round d.read (recoveryCommit a.processing.commit.runId
    (round.offset a.processing) d.read a.action.actionId m.now)) (.ok ())).next

/-- A compensation is decided on for the failed action of the call only with a handler for its
class and an action id; and where the workflow writes an outcome that says it was carried out, the
handler was run for the failed action. -/
def Backed (registry : CompensationRegistry) (s : GateState B) (a : Acting) (round : Round)
    (reflection : ReflectionAnswer) (checkedAt endedAt : ℚ) (m : Moment) (p : Process σ) : Prop :=
  ∀ d, (G.decide s (a.recoveryInput round) reflection checkedAt endedAt).1 = .ok d →
    d.mode = .staticCompensation →
      (registry.get? a.action.effectClass.text).isSome = true ∧ d.compensationActionId ≠ none ∧
      ∀ outcome ∈ writtenOutcome K m p a round d, outcome.outcomeState = "executed" →
        a.action ∈ G.handlersRun s (a.recoveryInput round) checkedAt

variable {K G}

theorem writtenOutcome_of_keeps (hkeeps : K.hasRecoveryOutcomes = true) (m : Moment) (p : Process σ)
    (a : Acting) (round : Round) (d : GateDecision) :
    writtenOutcome K m p a round d = some (recoveryOutcome a.processing.commit.runId
      (round.offset a.processing) d.read a.action.actionId m.now) := by
  simp only [writtenOutcome, resume, hkeeps, if_true, outcome?]

theorem handleSignals_outcome? (p : Process σ) (signals : List ActorSignal) :
    outcome? (handleSignals p signals).next = none := by
  induction signals with
  | nil => rfl
  | cons s rest ih =>
    unfold handleSignals
    split
    · rfl
    · split
      · exact ih
      · split
        · exact ih
        · rfl

theorem processed_outcome? (m : Moment) (p : Process σ) (delivery : Option Delivery) :
    outcome? (processed K m p delivery).next = none := by
  unfold processed
  split
  · rfl
  · dsimp only
    split
    · rfl
    · exact handleSignals_outcome? _ _

theorem writtenOutcome_of_keeps_none (hkeeps : K.hasRecoveryOutcomes = false) (m : Moment)
    (p : Process σ) (a : Acting) (round : Round) (d : GateDecision) :
    writtenOutcome K m p a round d = none := by
  simp only [writtenOutcome, resume, hkeeps, Bool.false_eq_true, if_false]
  cases round with
  | pending result => exact processed_outcome? m p a.processing.delivery
  | failed err => rfl

end

/-- **When a compensation decision is backed**: exactly when the gate does not come to one, or
there are a handler and an action id and the workflow keeps no outcomes. -/
theorem compensation_backed_iff {σ : Type} (K : Kernel σ) (G : PlannedRecoveryGate)
    {B : CircuitBreakerStore} (registry : CompensationRegistry) (s : GateState B) (a : Acting)
    (round : Round) (reflection : ReflectionAnswer) (checkedAt endedAt : ℚ) (m : Moment)
    (p : Process σ) :
    Backed K { G with compensationRegistry := some registry } registry s a round reflection checkedAt
        endedAt m p ↔
      (PlannedRecoveryGate.Compensates { G with compensationRegistry := some registry } s
          (a.recoveryInput round) checkedAt →
        (registry.get? a.action.effectClass.text).isSome = true ∧
        PlannerHeuristicPolicy.compensationActionId (a.recoveryInput round) ≠ none ∧
        K.hasRecoveryOutcomes = false) := by
  constructor
  · intro hbacked hcomes
    obtain ⟨d, hd, hstatic, hid⟩ := (decide_static_iff s (a.recoveryInput round) reflection checkedAt
      endedAt _).mpr ⟨hcomes, rfl⟩
    obtain ⟨hhandler, hsome, hexecuted⟩ := hbacked d hd hstatic
    refine ⟨hhandler, by rwa [hid] at hsome, ?_⟩
    by_contra hkeeps
    -- the outcome is written by the mode alone, and no handler was run
    have hrun := hexecuted _ (writtenOutcome_of_keeps (by simpa using hkeeps) m p a round d) (by
      show recoveryOutcomeState d.mode = "executed"
      rw [hstatic]
      rfl)
    rw [handlersRun_eq_nil] at hrun
    cases hrun
  · intro hcond d hd hstatic
    obtain ⟨hcomes, hid⟩ := (decide_static_iff s (a.recoveryInput round) reflection checkedAt endedAt
      _).mp ⟨d, hd, hstatic, rfl⟩
    obtain ⟨hhandler, hsome, hkeeps⟩ := hcond hcomes
    refine ⟨hhandler, by rwa [← hid], fun outcome houtcome => ?_⟩
    rw [writtenOutcome_of_keeps_none hkeeps] at houtcome
    cases houtcome

/-- The sample commit after its turn has raised. -/
def failedActing : Acting where
  processing := ⟨Workflow.Sample.actionCommit, 1, none⟩
  projection := { Projection.defaultProjection "run" with projectedOffset := 1 }
  action := Turns.Sample.action "run" "act"

def timedOut : Round := .failed ⟨.other "TimeoutError", ""⟩

/-- No handler is registered for anything, and the decision is a compensation all the same. -/
theorem compensation_without_handler :
    ¬ Backed Workflow.Sample.kernel { compensationRegistry := some .empty } .empty
      ({} : GateState CircuitMemory.store) failedActing timedOut .loopFailed 0 0 {}
      Workflow.Sample.world.process := by
  intro backed
  have hhandled : PlannedRecoveryGate.Handled { compensationRegistry := some .empty }
      (failedActing.recoveryInput timedOut) := by
    intro registry effectClass _ hclass
    rw [show extractEffectClass (failedActing.recoveryInput timedOut) = none by decide] at hclass
    cases hclass
  obtain ⟨d, hd, hstatic, _⟩ := (decide_static_iff (G := { compensationRegistry := some .empty })
    ({} : GateState CircuitMemory.store) (failedActing.recoveryInput timedOut) .loopFailed 0 0
    (some "act")).mpr ⟨⟨rfl, ⟨_, rfl, by decide⟩, hhandled, rfl⟩, rfl⟩
  exact absurd (backed d hd hstatic).1 (by decide)

end AgentKernel.Recovery
