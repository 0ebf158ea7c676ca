import AgentKernel.Turns.Engine

/-! What a turn is about.

A turn that is given an action carries the action and its own input through all its
phases. So whatever it returns, the decision fingerprint is made of them
(`move_concerns`). -/
namespace AgentKernel.Turns
open Lib Dedupe

/-- `_build_turn_identity`'s fingerprint, which does not depend on the snapshot. -/
def decisionFingerprint (input : TurnInput) (action : Action) : String :=
  input.runId ++ ":" ++ input.triggerType.text ++ ":" ++ action.actionId ++ ":" ++
    toString input.basedOnOffset

def Candidate.Concerns (input : TurnInput) (action : Action) (c : Candidate) : Prop :=
  c.input = input ∧ c.action = action

def Progress.Concerns (input : TurnInput) (action : Action) : Progress → Prop
  | .noopOrReasoning given => given = some action
  | .reasoning _ => False
  | .snapshot given => given = action
  | .admission c | .admitting c | .dispatchPolicy c _ | .dedupe c _ _ => c.Concerns input action
  | .execute d | .executing d _ => d.candidate.Concerns input action
  | .finished (.returned result) => result.decisionFingerprint = decisionFingerprint input action
  | .finished (.raised _) => True

section
variable {σ : Type} {S : DedupeStorePort σ} {H : Digest} {t : Turn} {action : Action} {c : Candidate}

theorem blockedResult_fingerprint (h : c.Concerns t.input action) (policy : Option DispatchPolicy)
    (events : List TurnStateEvent) :
    (blockedResult H c policy events).decisionFingerprint = decisionFingerprint t.input action := by
  obtain ⟨hinput, haction⟩ := h
  rw [← hinput, ← haction]
  rfl

theorem timedOut_concerns (h : t.progress.Concerns t.input action) (seen : List Happening) :
    (timedOut t seen).progress.Concerns t.input action := by
  unfold timedOut
  split
  · exact trivial
  · exact h

theorem guarded_concerns {x : Call PyError σ Move}
    (h : Call.Yields (fun m => m.progress.Concerns t.input action) x) :
    Call.Yields (fun m => m.progress.Concerns t.input action) (guarded t x) :=
  h.tryCatch (fun _ => Call.yields_pure trivial)

theorem phaseSnapshot_concerns (ports : Ports) :
    (phaseSnapshot H t ports action).progress.Concerns t.input action := by
  unfold phaseSnapshot
  split
  · exact ⟨rfl, rfl⟩
  · split
    · show (buildTurnIdentity H t.input action none).decisionFingerprint = _
      rfl
    · exact trivial
  · exact trivial

theorem admissionReturned_concerns (h : c.Concerns t.input action) (result : AdmissionValue) :
    (admissionReturned H t c result).progress.Concerns t.input action := by
  unfold admissionReturned
  split
  · exact trivial
  · exact h
  · exact blockedResult_fingerprint h none _

theorem phaseDispatchPolicy_concerns (h : c.Concerns t.input action) (admission : AdmissionValue) :
    (phaseDispatchPolicy H t c admission).progress.Concerns t.input action := by
  unfold phaseDispatchPolicy
  simp only
  split
  · exact blockedResult_fingerprint h _ _
  · exact h

theorem phaseDedupe_concerns (h : c.Concerns t.input action) (admission : AdmissionValue)
    (policy : DispatchPolicy) :
    Call.Yields (fun m => m.progress.Concerns t.input action)
      (phaseDedupe S H t c admission policy) := by
  unfold phaseDedupe
  refine (Call.yields_any _).bind (fun found _ => ?_)
  cases found with
  | some record => exact Call.yields_pure (blockedResult_fingerprint h _ _)
  | none =>
    refine (Call.yields_any _).bind (fun reserved _ => ?_)
    split
    · exact Call.yields_pure (blockedResult_fingerprint h _ _)
    · exact (Call.yields_any _).map (fun _ _ => h)

theorem executionEnded_concerns {d : Dispatch} (h : d.candidate.Concerns t.input action)
    (ht : t.progress.Concerns t.input action) (now : String) (a : Awaited ExecuteResult) :
    Call.Yields (fun m => m.progress.Concerns t.input action) (executionEnded S H t d now a) := by
  obtain ⟨hinput, haction⟩ := h
  have hfingerprint : (d.candidate.identity H).decisionFingerprint =
      decisionFingerprint t.input action := by
    rw [← hinput, ← haction]
    rfl
  cases a with
  | returned result =>
    refine (guarded_concerns ?_).map (fun m hm => hm)
    unfold executorReturned
    simp only
    split
    · exact Call.yields_throw _ _
    · exact (Call.yields_any _).map (fun _ _ => hfingerprint)
    · exact (Call.yields_any _).map (fun _ _ => hfingerprint)
  | raised r =>
    refine (guarded_concerns ?_).map (fun m hm => hm)
    cases r with
    | exception e => exact (Call.yields_any _).map (fun _ _ => trivial)
    | exit name => exact Call.yields_pure trivial
  | timedOut => exact Call.yields_pure (timedOut_concerns ht _)

theorem advance_concerns (h : t.progress.Concerns t.input action) (ports : Ports) :
    Call.Yields (fun m => m.progress.Concerns t.input action) (advance S H t ports) := by
  have htimed := fun seen => timedOut_concerns (t := t) h seen
  unfold advance
  cases hp : t.progress with
  | noopOrReasoning given =>
    rw [hp] at h
    have hgiven : given = some action := h
    subst hgiven
    simp only
    split
    · exact Call.yields_pure (htimed [])
    · exact Call.yields_pure rfl
  | reasoning request =>
    rw [hp] at h
    exact h.elim
  | snapshot given =>
    rw [hp] at h
    have hgiven : given = action := h
    subst hgiven
    exact Call.yields_pure (phaseSnapshot_concerns ports)
  | admission c =>
    rw [hp] at h
    refine Call.yields_pure ?_
    unfold phaseAdmission
    split
    · exact h
    · exact trivial
  | admitting c =>
    rw [hp] at h
    simp only
    cases ports.evaluateAdmission c.action c.snapshot with
    | returned result => exact Call.yields_pure (admissionReturned_concerns h result)
    | raised r => exact Call.yields_pure trivial
    | timedOut => exact Call.yields_pure (htimed [])
  | dispatchPolicy c admission =>
    rw [hp] at h
    exact Call.yields_pure (phaseDispatchPolicy_concerns h admission)
  | dedupe c admission policy =>
    rw [hp] at h
    exact guarded_concerns (phaseDedupe_concerns h admission policy)
  | execute d =>
    rw [hp] at h
    exact Call.yields_pure h
  | executing d call =>
    have hd : d.candidate.Concerns t.input action := by rw [hp] at h; exact h
    exact executionEnded_concerns hd h _ _
  | finished outcome =>
    rw [hp] at h
    exact Call.yields_pure h

/-- **A turn stays about its input and its action.** -/
theorem move_concerns (h : t.progress.Concerns t.input action) (ports : Ports) (s : σ) :
    (t.move S H ports s).1.progress.Concerns t.input action := by
  unfold Turn.move
  cases hadvance : advance S H t ports s with
  | ok m s' => exact advance_concerns h ports s m s' hadvance
  | error e s' => exact trivial

end
end AgentKernel.Turns
