import AgentKernel.Lib.Run
import AgentKernel.Recovery.Gate
import AgentKernel.Workflow.World

/-! Reflection over the failures of a run.

A workflow whose decisions come from the gate: when a call awaits a decision, the gate makes it
from the input the workflow built, and the workflow goes on with what it reads of it. Every input
is of round zero and no event names the corrected action, so `reflection_kept_iff` says that the
bound and the result of reflection are kept exactly by runs in which reflection corrects nothing. -/
namespace AgentKernel.Recovery
open Lib Workflow

/-! ### A workflow with its gate -/

/-- A decision that was made: for which failure, by which state of the gate and when. -/
structure Taken (B : CircuitBreakerStore) where
  acting : Acting
  round : Round
  before : GateState B
  checkedAt : ℚ
  endedAt : ℚ
  decision : GateDecision

def Taken.input {B : CircuitBreakerStore} (t : Taken B) : RecoveryInput :=
  t.acting.recoveryInput t.round

structure Gated (σ : Type) (B : CircuitBreakerStore) where
  world : World σ
  gate : GateState B := {}
  taken : List (Taken B) := []

inductive GatedLabel where
  /-- Anything but a decision. -/
  | world (l : Label)
  /-- The decision that call `i` awaits. -/
  | decide (i : Nat) (reflection : ReflectionAnswer) (checkedAt endedAt : ℚ)
  | onActionSuccess (effectClass : String)

/-- The failure a call awaits the decision about. -/
def Status.deciding? : Status → Option (Acting × Round)
  | .awaiting (.deciding a round _) => some (a, round)
  | _ => none

section
variable {σ : Type} (K : Kernel σ) (G : PlannedRecoveryGate) {B : CircuitBreakerStore}

/-- The failure call `i` awaits the decision about. -/
def Gated.deciding? (w : Gated σ B) (i : Nat) : Option (Acting × Round) :=
  w.world.calls[i]?.bind Status.deciding?

/-- The label is a decision that the gate did not make. -/
def Gated.forges (w : Gated σ B) : Label → Bool
  | .serve i b => (w.deciding? i).isSome && b.failure.isNone
  | _ => false

def Gated.next (w : Gated σ B) : GatedLabel → Gated σ B
  | .world l => if w.forges l then w else { w with world := w.world.step K l }
  | .onActionSuccess effectClass => { w with gate := w.gate.onActionSuccess effectClass }
  | .decide i reflection checkedAt endedAt =>
    match w.deciding? i with
    | none => w
    | some (a, round) =>
      match G.decide w.gate (a.recoveryInput round) reflection checkedAt endedAt with
      | (.ok d, gate) =>
        { world := w.world.step K (.serve i { decision := d.read })
          gate := gate
          taken := w.taken ++ [⟨a, round, w.gate, checkedAt, endedAt, d⟩] }
      | (.error e, gate) =>
        { w with
          world := w.world.step K (.serve i { failure := some (.exception e) })
          gate := gate }

/-! ### What reflection owes -/

/-- The events that are appended for the decision. -/
def Taken.events (t : Taken B) (d : GateDecision) (now : String) : List RuntimeEvent :=
  (recoveryCommit t.acting.processing.commit.runId (t.round.offset t.acting.processing) d.read
    t.acting.action.actionId now).events

/-- Whatever reflection could have come back with, the same events mean the same corrected
action. -/
def Taken.Determined (t : Taken B) : Prop :=
  ∀ reflection d, (G.decide t.before t.input reflection t.checkedAt t.endedAt).1 = .ok d →
    (∀ now, t.events d now = t.events t.decision now) →
      d.correctedAction = t.decision.correctedAction

/-- At most as many corrections as there are rounds for every failed action, and every corrected
action can be told from the log. -/
structure ReflectionKept (policy : ReflectionPolicy) (w : Gated σ B) : Prop where
  bounded : ∀ actionId, ((w.taken.countP (fun t => t.decision.mode = .reflectAndRetry ∧
    t.input.failedActionId = some actionId) : Nat) : Int) ≤ max policy.maxRounds 0
  determined : ∀ t ∈ w.taken, t.decision.mode = .reflectAndRetry → t.Determined G

/-- The gate takes the failure up for reflection. -/
def PlannedRecoveryGate.Reflects (s : GateState B) (input : RecoveryInput) (checkedAt : ℚ) : Prop :=
  G.isCircuitOpen B s.breaker input.failedEffectClass checkedAt = false ∧
    ∃ base, G.base input = .ok base ∧ G.shouldReflect input base.mode = true

/-- The step is no decision in which reflection comes back with an action. -/
def NothingCorrected (w : Gated σ B) : GatedLabel → Prop
  | .decide i reflection checkedAt _ => ∀ a round action rest, w.deciding? i = some (a, round) →
    reflection = .actions (action :: rest) → ¬ G.Reflects w.gate (a.recoveryInput round) checkedAt
  | _ => True

end

/-! ### When something is corrected -/

section
variable {G : PlannedRecoveryGate} {B : CircuitBreakerStore}

theorem base_mode_ne_reflect {input : RecoveryInput} {base : BaseDecision}
    (h : G.base input = .ok base) : base.mode ≠ .reflectAndRetry := by
  have hplanned : ∀ action, recoveryModeOf action ≠ .reflectAndRetry := by
    intro action
    cases action <;> decide
  have hchecked : ∀ planned : BaseDecision, planned.mode ≠ .reflectAndRetry →
      (G.checkCompensation input planned).mode ≠ .reflectAndRetry := by
    intro planned hmode
    unfold PlannedRecoveryGate.checkCompensation
    split
    · split
      · exact fun h => nomatch h
      · exact hmode
    · exact hmode
  cases hplan : G.planner.buildPlanFromInput input with
  | error e =>
    rw [PlannedRecoveryGate.base, hplan] at h
    cases h
  | ok plan =>
    rw [PlannedRecoveryGate.base, hplan] at h
    obtain rfl := Except.ok.inj h
    dsimp only
    split
    · exact hchecked _ (hplanned plan.action)
    · exact hplanned plan.action

/-- What a reflection that comes back with an action makes of the failure. -/
def PlannedRecoveryGate.correction (s : GateState B) (input : RecoveryInput) (base : BaseDecision)
    (correctedAction : Action) : GateDecision :=
  attachBackoff
    { runId := input.runId
      mode := .reflectAndRetry
      reason := base.reason ++ ":reflect_and_retry:round=" ++ toString (input.reflectionRound + 1)
      correctedAction := some correctedAction }
    ((s.failureCounts.get? input.runId).getD 0 + 1)

theorem decide_of_reflects {s : GateState B} {input : RecoveryInput} {checkedAt : ℚ}
    (h : G.Reflects s input checkedAt) : ∃ base, ∀ action rest endedAt,
      (G.decide s input (.actions (action :: rest)) checkedAt endedAt).1 =
        .ok (PlannedRecoveryGate.correction s input base action) := by
  obtain ⟨hclosed, base, hbase, hreflect⟩ := h
  refine ⟨base, fun action rest endedAt => ?_⟩
  simp only [PlannedRecoveryGate.decide, hclosed, Bool.false_eq_true, if_false, hbase, hreflect,
    if_true]
  rfl

/-- A decision corrects only where the gate reflects and reflection comes back with an action. -/
theorem reflects_of_decide {s : GateState B} {input : RecoveryInput} {reflection : ReflectionAnswer}
    {checkedAt endedAt : ℚ} {d : GateDecision}
    (h : (G.decide s input reflection checkedAt endedAt).1 = .ok d) (hmode : d.mode = .reflectAndRetry) :
    G.Reflects s input checkedAt ∧ ∃ action rest, reflection = .actions (action :: rest) := by
  have hdecides := G.decides s input reflection checkedAt endedAt
  generalize (G.decide s input reflection checkedAt endedAt).1 = answer at h hdecides
  cases hdecides with
  | turnedAway hopen =>
    obtain rfl := Except.ok.inj h
    cases hmode
  | unplanned hclosed hbase => cases h
  | @reflected base hclosed hbase hreflect =>
    refine ⟨⟨hclosed, base, hbase, hreflect⟩, ?_⟩
    cases hr : G.decideReflectAndRetry input base.reason reflection with
    | error e =>
      rw [hr] at h
      cases h
    | ok d' =>
      rw [hr] at h
      obtain rfl := Except.ok.inj h
      replace hmode : d'.mode = .reflectAndRetry := hmode
      rcases PlannedRecoveryGate.decideReflectAndRetry_cases hr with rfl | ⟨_, hactions⟩
      · rcases PlannedRecoveryGate.fallbackDecision_mode (G := G) input base.reason with hf | hf
        · cases hf.symm.trans hmode
        · cases hf.symm.trans hmode
      · exact hactions
  | planned hclosed hbase hreflect =>
    obtain rfl := Except.ok.inj h
    exact absurd hmode (base_mode_ne_reflect hbase)

/-- The events of a correction would be the same for another action. -/
theorem not_determined {t : Taken B} {reflection : ReflectionAnswer}
    (h : (G.decide t.before t.input reflection t.checkedAt t.endedAt).1 = .ok t.decision)
    (hmode : t.decision.mode = .reflectAndRetry) : ¬ t.Determined G := by
  intro hdetermined
  obtain ⟨hreflects, action, rest, rfl⟩ := reflects_of_decide h hmode
  obtain ⟨base, hdecide⟩ := decide_of_reflects hreflects
  have hdecision := Except.ok.inj (h.symm.trans (hdecide action rest t.endedAt))
  let other : Action := { action with actionId := action.actionId ++ "'" }
  have hsame := hdetermined (.actions [other]) _ (hdecide other [] t.endedAt) (fun now => by
    rw [hdecision]
    rfl)
  rw [hdecision] at hsame
  have hid : action.actionId ++ "'" = action.actionId :=
    congrArg Action.actionId (Option.some.inj hsame)
  have hlength := congrArg String.length hid
  simp at hlength

end

section
variable {σ : Type} {K : Kernel σ} {G : PlannedRecoveryGate} {B : CircuitBreakerStore}
  {policy : ReflectionPolicy}

/-- No decision so far has corrected anything. -/
def Uncorrected (w : Gated σ B) : Prop := ∀ t ∈ w.taken, t.decision.mode ≠ .reflectAndRetry

theorem Uncorrected.kept {w : Gated σ B} (h : Uncorrected w) : ReflectionKept G policy w where
  bounded actionId := by
    rw [List.countP_eq_zero.mpr (fun t ht hc => h t ht (of_decide_eq_true hc).1)]
    exact le_max_right _ _
  determined t ht hmode := absurd hmode (h t ht)

theorem Uncorrected.of_taken {w w' : Gated σ B} (h : Uncorrected w) (htaken : w'.taken = w.taken) :
    Uncorrected w' := by
  unfold Uncorrected
  rw [htaken]
  exact h

variable (policy) in
/-- **One step.** Nothing is lost or unbounded after it exactly when it corrects nothing. -/
theorem kept_next_iff {w : Gated σ B} (h : Uncorrected w) (e : GatedLabel) :
    (ReflectionKept G policy (w.next K G e) ↔ NothingCorrected G w e) ∧
      (NothingCorrected G w e → Uncorrected (w.next K G e)) := by
  have quiet : (w.next K G e).taken = w.taken → NothingCorrected G w e →
      (ReflectionKept G policy (w.next K G e) ↔ NothingCorrected G w e) ∧
        (NothingCorrected G w e → Uncorrected (w.next K G e)) :=
    fun htaken hnothing => ⟨iff_of_true (h.of_taken htaken).kept hnothing, fun _ => h.of_taken htaken⟩
  cases e with
  | world l =>
    refine quiet ?_ trivial
    rw [Gated.next]
    split <;> rfl
  | onActionSuccess effectClass => exact quiet rfl trivial
  | decide i reflection checkedAt endedAt =>
    cases hwaits : w.deciding? i with
    | none =>
      refine quiet (by rw [Gated.next, hwaits]) (fun a round action rest hsome => ?_)
      cases hwaits.symm.trans hsome
    | some failure =>
      obtain ⟨a, round⟩ := failure
      cases hdecide : G.decide w.gate (a.recoveryInput round) reflection checkedAt endedAt with
      | mk answer gate =>
        have hanswer : (G.decide w.gate (a.recoveryInput round) reflection checkedAt endedAt).1 =
            answer := by
          rw [hdecide]
        cases answer with
        | error e =>
          refine quiet (by simp only [Gated.next, hwaits, hdecide]) ?_
          rintro a' round' action rest hsome rfl hreflects
          cases hwaits.symm.trans hsome
          obtain ⟨base, hcorrects⟩ := decide_of_reflects hreflects
          cases hanswer.symm.trans (hcorrects action rest endedAt)
        | ok d =>
          have htaken : (w.next K G (.decide i reflection checkedAt endedAt)).taken =
              w.taken ++ [⟨a, round, w.gate, checkedAt, endedAt, d⟩] := by
            simp only [Gated.next, hwaits, hdecide]
          by_cases hmode : d.mode = .reflectAndRetry
          · obtain ⟨hreflects, action, rest, rfl⟩ := reflects_of_decide hanswer hmode
            have hcorrects : ¬ NothingCorrected G w
                (.decide i (.actions (action :: rest)) checkedAt endedAt) :=
              fun hnothing => hnothing a round action rest hwaits rfl hreflects
            refine ⟨iff_of_false (fun hkept => ?_) hcorrects, fun hnothing => (hcorrects hnothing).elim⟩
            have hmem : (⟨a, round, w.gate, checkedAt, endedAt, d⟩ : Taken B) ∈ (w.next K G
                (.decide i (.actions (action :: rest)) checkedAt endedAt)).taken := by
              rw [htaken]
              exact List.mem_append_right _ List.mem_cons_self
            exact not_determined hanswer hmode (hkept.determined _ hmem hmode)
          · have hun : Uncorrected (w.next K G (.decide i reflection checkedAt endedAt)) := by
              intro t ht
              rw [htaken] at ht
              rcases List.mem_append.mp ht with ht | ht
              · exact h t ht
              · rw [List.mem_singleton.mp ht]
                exact hmode
            refine ⟨iff_of_true hun.kept ?_, fun _ => hun⟩
            rintro a' round' action rest hsome rfl hreflects
            cases hwaits.symm.trans hsome
            obtain ⟨base, hcorrects⟩ := decide_of_reflects hreflects
            cases hanswer.symm.trans (hcorrects action rest endedAt)
            exact hmode rfl

end

/-- **When reflection is bounded and keeps its result.** For a gate with reflection, over any log and
any dedupe store, however calls of the workflow, its services and its gate interleave: throughout a
run there are no more corrections of one failed action than rounds, and the log tells every
corrected action, exactly when no failure that the gate takes up for reflection is answered with an
action. -/
theorem reflection_kept_iff {σ : Type} (K : Kernel σ) (G : PlannedRecoveryGate)
    (B : CircuitBreakerStore) (policy : ReflectionPolicy) (journal : Events.Journal) (store : σ)
    (labels : List GatedLabel) :
    let reflecting : PlannedRecoveryGate :=
      { G with reflectionPolicy := some policy, hasReasoningLoop := true, hasReflectionBuilder := true }
    let start : Gated σ B := { world := World.fresh journal store }
    (∀ pre, pre <+: labels → ReflectionKept reflecting policy (run (Gated.next K reflecting) start pre)) ↔
      Along (Gated.next K reflecting) (NothingCorrected reflecting) start labels := by
  intro reflecting start
  have hstart : Uncorrected start := fun t ht => absurd ht List.not_mem_nil
  exact forall_prefix_iff_along (I := ReflectionKept reflecting policy) (J := Uncorrected)
    (A := fun _ _ => True) (fun _ hw => hw.kept) (fun _ e _ hw => (kept_next_iff policy hw e).1)
    (fun _ e _ hw hc => (kept_next_iff policy hw e).2 hc) hstart
    (Along.of_forall (fun _ _ => trivial) _ _)

/-! ### A run -/

namespace Sample
open Workflow.Sample

/-- One round of reflection for what the workflow calls a `RuntimeError`. -/
def oneRound : ReflectionPolicy := { maxRounds := 1, reflectableFailureKinds := ["runtimeerror"] }

def reflectingGate : PlannedRecoveryGate :=
  { reflectionPolicy := some oneRound, hasReasoningLoop := true, hasReflectionBuilder := true }

/-- The same action once more, after the events of its recovery. -/
def againCommit : ActionCommit :=
  { actionCommit with
    commitId := "again"
    events := [Projection.factEvent "run" "run.ready" 4 none] }

/-- A call whose turn ends and whose outcome cannot be appended, up to the decision. -/
def failed (i turn : Nat) : List Label :=
  awaits i 4 ++ List.replicate 8 (.turn ⟨turn, ports unacknowledged⟩) ++ awaits i 1 ++ failing i ++
    awaits i 1

/-- Call `i` gets a corrected action. -/
def corrected (i : Nat) : GatedLabel := .decide i (.actions [Turns.Sample.action "run" "fixed"]) 0 0

/-- The action fails, is corrected, and fails again. -/
def failsTwice : List GatedLabel :=
  (written ++ Label.call (.processActionCommit actionCommit) :: failed 1 0).map .world ++
    corrected 1 ::
      (Label.resume 1 {} :: awaits 1 2 ++ Label.call (.write againCommit) :: awaits 2 1 ++
        Label.call (.processActionCommit againCommit) :: failed 3 1).map .world ++ [corrected 3]

end Sample

/-- With one round allowed, the same action is corrected twice, both times in round one. -/
theorem rounds_are_not_counted :
    ¬ ReflectionKept Sample.reflectingGate Sample.oneRound
      (run (Gated.next Workflow.Sample.kernel Sample.reflectingGate)
        ({ world := Workflow.Sample.world } : Gated _ CircuitMemory.store) Sample.failsTwice) := by
  intro kept
  exact absurd (kept.bounded "act") (by decide +kernel)

end AgentKernel.Recovery
