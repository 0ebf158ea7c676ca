import AgentKernel.Workflow.Facts

/-! The recovery planner: from a failure to what is to be done about it. -/
namespace AgentKernel.Recovery
open Lib Workflow

inductive RecoveryPlanAction where
  | scheduleCompensation
  | notifyHumanOperator
  | abortRun
  deriving DecidableEq, Repr

inductive ReasonClassification where
  | transient
  | fatal
  | human
  | unknown
  deriving DecidableEq, Repr

structure RecoveryPlan where
  runId : String
  action : RecoveryPlanAction
  reason : String
  compensationActionId : Option String := none
  escalationChannelRef : Option String := none
  deriving DecidableEq, Repr

structure PlannerHeuristicPolicy where
  reasonPrefixText : String := "recovery"
  defaultEscalationChannelRef : String := "human://operator"
  humanReasonPrefixes : List String :=
    ["human_", "manual_", "requires_human", "waiting_external", "external_"]
  transientReasonPrefixes : List String := ["transient_", "executor_transient", "retryable_"]
  fatalReasonPrefixes : List String :=
    ["fatal", "non_recoverable", "permission_denied", "policy_denied"]
  abortReasonPrefixes : List String := []
  transientAction : RecoveryPlanAction := .scheduleCompensation
  fatalAction : RecoveryPlanAction := .abortRun
  humanAction : RecoveryPlanAction := .notifyHumanOperator
  unknownAction : RecoveryPlanAction := .scheduleCompensation

def hasPrefixIn (value : String) (prefixes : List String) : Bool :=
  prefixes.any (Text.startsWith value)

namespace PlannerHeuristicPolicy
variable (policy : PlannerHeuristicPolicy)

def classifyReason (reasonCode : String) : ReasonClassification :=
  let normalizedReason := Text.lower (Text.strip reasonCode)
  if hasPrefixIn normalizedReason policy.humanReasonPrefixes then .human
  else if hasPrefixIn normalizedReason (policy.fatalReasonPrefixes ++ policy.abortReasonPrefixes) then
    .fatal
  else if hasPrefixIn normalizedReason policy.transientReasonPrefixes then .transient
  else .unknown

def actionForClassification : ReasonClassification → RecoveryPlanAction
  | .human => policy.humanAction
  | .fatal => policy.fatalAction
  | .transient => policy.transientAction
  | .unknown => policy.unknownAction

/-- The id a compensation would be scheduled for. -/
def compensationActionId (input : RecoveryInput) : Option String :=
  Text.orElse input.failedActionId input.projection.currentActionId

def plan (input : RecoveryInput) (action : RecoveryPlanAction)
    (compensation escalation : Option String) : RecoveryPlan where
  runId := input.runId
  action := action
  reason := policy.reasonPrefixText ++ ":" ++ input.reasonCode
  compensationActionId := compensation
  escalationChannelRef := escalation

def notify (input : RecoveryInput) : RecoveryPlan :=
  policy.plan input .notifyHumanOperator none (some policy.defaultEscalationChannelRef)

/-- What the reason code is classified as decides. -/
def planByReason (input : RecoveryInput) : RecoveryPlan :=
  let normalizedReason := Text.lower (Text.strip input.reasonCode)
  match policy.actionForClassification (policy.classifyReason normalizedReason) with
  | .notifyHumanOperator => policy.notify input
  | .scheduleCompensation =>
    match compensationActionId input with
    | some id => policy.plan input .scheduleCompensation (some id) none
    | none => policy.plan input .abortRun none none
  | .abortRun => policy.plan input .abortRun none none

/-- `build_plan_from_input`. -/
def buildPlanFromInput (input : RecoveryInput) : Except PyError RecoveryPlan :=
  if input.runId ≠ input.projection.runId then
    .error ⟨.valueError, "recovery input run_id must match projection run_id."⟩
  else
    .ok (match input.projection.recoveryMode with
      | some .humanEscalation => policy.notify input
      -- the mode the projection shows is followed even without an action id
      | some .staticCompensation =>
        policy.plan input .scheduleCompensation (compensationActionId input) none
      | some .abort => policy.plan input .abortRun none none
      | _ =>
        if input.lifecycleState = .waitingExternal then policy.notify input
        else policy.planByReason input)

/-- A plan that schedules a compensation does so for the action id, or for none. -/
theorem compensationActionId_of_schedule {input : RecoveryInput} {plan : RecoveryPlan}
    (h : policy.buildPlanFromInput input = .ok plan) (hschedule : plan.action = .scheduleCompensation) :
    plan.compensationActionId = compensationActionId input := by
  have byReason : (policy.planByReason input).action = .scheduleCompensation →
      (policy.planByReason input).compensationActionId = compensationActionId input := by
    unfold planByReason
    dsimp only
    split
    · exact fun hnotify => nomatch hnotify
    · cases hid : compensationActionId input with
      | none => exact fun habort => nomatch habort
      | some id => exact fun _ => rfl
    · exact fun habort => nomatch habort
  unfold buildPlanFromInput at h
  split at h
  · cases h
  · obtain rfl := Except.ok.inj h
    revert hschedule
    split
    · exact fun hnotify => nomatch hnotify
    · exact fun _ => rfl
    · exact fun habort => nomatch habort
    · split
      · exact fun hnotify => nomatch hnotify
      · exact byReason

end PlannerHeuristicPolicy
end AgentKernel.Recovery
