import Mathlib.Data.List.Nodup
import AgentKernel.Projection.Fold

/-! Child runs in the projection.

While a run is open, a spawn event adds the child it names and a completion event
removes it; the six event names touch nothing else (`child_event_keeps_lifecycle`).
So a child is tracked exactly when the last event about it was a spawn
(`activeChildRuns_iff_last_spawn`). -/
namespace AgentKernel.Projection
open Lib

def childEventTypes : List String := childSpawnTypes ++ childCompletionTypes

/-- The run has ended. -/
def Terminal (p : RunProjection) : Prop := p.lifecycleState ∈ [RunLifecycleState.aborted, .completed]

instance (p : RunProjection) : Decidable (Terminal p) := inferInstanceAs (Decidable (_ ∈ _))

/-- The event names the child and spawns or completes it. -/
def About (child : String) (e : RuntimeEvent) : Prop :=
  payloadText e "child_run_id" = some child ∧ e.eventType ∈ childEventTypes

instance (child : String) (e : RuntimeEvent) : Decidable (About child e) :=
  inferInstanceAs (Decidable (_ ∧ _))

/-- The events applied while the run was open. -/
def openEvents (p : RunProjection) : List RuntimeEvent → List RuntimeEvent
  | [] => []
  | e :: rest =>
    if Terminal p then openEvents (applyProjectionEvent p e) rest
    else e :: openEvents (applyProjectionEvent p e) rest

/-- The last event about the child while the run was open. -/
def lastAbout (p : RunProjection) (events : List RuntimeEvent) (child : String) : Option RuntimeEvent :=
  ((openEvents p events).filter (fun e => About child e)).getLast?

/-! ### Lifecycle -/

/-- **Child events change nothing but the child runs.** -/
theorem child_event_keeps_lifecycle (p : RunProjection) {e : RuntimeEvent}
    (h : e.eventType ∈ childEventTypes) :
    resolveProjectionTransition p e = projectionUnchangedState p := by
  have htable : ∀ t ∈ childEventTypes, staticEventTransitions.lookup t = none ∧
      resolveDynamicTransition t = none ∧ t ≠ "run.cancel_requested" ∧ t ≠ "reconcile.failed" := by
    decide
  obtain ⟨hstatic, hdynamic, hcancel, hreconcile⟩ := htable e.eventType h
  by_cases hblocked : blockedByTerminalOrPriority p e = true
  · exact if_pos hblocked
  · rw [resolveProjectionTransition, if_neg hblocked, if_neg hcancel, if_neg hreconcile, hstatic,
      hdynamic]

/-! ### The child list -/

theorem extractChildRunId_eq {e : RuntimeEvent} {child : String} :
    extractChildRunId e = some child ↔ payloadText e "child_run_id" = some child ∧ child ≠ "" := by
  unfold extractChildRunId
  cases payloadText e "child_run_id" with
  | none => simp
  | some c =>
    by_cases hc : c = ""
    · subst hc
      simp only [if_true, Option.some.injEq]
      exact ⟨fun h => (nomatch h), fun h => (h.2 h.1.symm).elim⟩
    · simp only [hc, if_false, Option.some.injEq]
      exact ⟨fun h => ⟨h, h ▸ hc⟩, fun h => h.1⟩

theorem resolveActiveChildRuns_nodup {p : RunProjection} (h : p.activeChildRuns.Nodup) (e : RuntimeEvent) :
    (resolveActiveChildRuns p e).Nodup := by
  unfold resolveActiveChildRuns
  split
  · exact h
  · split
    · exact h
    · rename_i child _
      split
      · split
        · exact h
        · rename_i hfresh
          refine List.nodup_append.mpr ⟨h, List.nodup_singleton child, ?_⟩
          intro a ha b hb hab
          rw [List.mem_singleton.mp hb] at hab
          exact hfresh (hab ▸ ha)
      · split
        · exact h.filter _
        · exact h

theorem activeChildRuns_nodup (runId : String) (events : List RuntimeEvent) :
    (foldProjection runId events).activeChildRuns.Nodup := by
  refine @run_invariant _ _ applyProjectionEvent (fun p => p.activeChildRuns.Nodup) ?_ _ ?_ events
  · intro p e h
    exact resolveActiveChildRuns_nodup h e
  · exact List.nodup_nil

/-- An event that is not about the child leaves it where it was. -/
theorem mem_resolve_of_not_about {p : RunProjection} {e : RuntimeEvent} {child : String}
    (h : ¬ About child e) : child ∈ resolveActiveChildRuns p e ↔ child ∈ p.activeChildRuns := by
  unfold resolveActiveChildRuns
  split
  · rfl
  · split
    · rfl
    · rename_i other hother
      obtain ⟨htext, _⟩ := extractChildRunId_eq.mp hother
      have hne : e.eventType ∈ childEventTypes → child ≠ other := by
        intro htype hchild
        obtain rfl := hchild
        exact h ⟨htext, htype⟩
      split
      · rename_i hspawn
        have hother := hne (List.mem_append_left _ hspawn)
        split
        · rfl
        · simp [hother]
      · split
        · rename_i hcompletion
          have hother := hne (List.mem_append_right _ hcompletion)
          simp [hother]
        · rfl

/-- An event about the child, on an open run, decides whether it is tracked. -/
theorem mem_resolve_of_about {p : RunProjection} {e : RuntimeEvent} {child : String}
    (hopen : ¬ Terminal p) (hchild : child ≠ "") (h : About child e) :
    child ∈ resolveActiveChildRuns p e ↔ e.eventType ∈ childSpawnTypes := by
  have hextract : extractChildRunId e = some child := extractChildRunId_eq.mpr ⟨h.1, hchild⟩
  have hstate : p.lifecycleState ∉ [RunLifecycleState.aborted, .completed] := hopen
  unfold resolveActiveChildRuns
  rw [if_neg hstate, hextract]
  by_cases hspawn : e.eventType ∈ childSpawnTypes
  · simp only [hspawn, if_true]
    split
    · rename_i hmem
      simp [hmem]
    · simp
  · have hcompletion : e.eventType ∈ childCompletionTypes := by
      rcases List.mem_append.mp h.2 with hs | hc
      · exact (hspawn hs).elim
      · exact hc
    simp [hspawn, hcompletion]

theorem resolveActiveChildRuns_terminal {p : RunProjection} (h : Terminal p) (e : RuntimeEvent) :
    resolveActiveChildRuns p e = p.activeChildRuns := if_pos h

/-- After any events a child is tracked if the last event about it says so, and as
before if there was none. -/
theorem mem_activeChildRuns_run (p : RunProjection) (events : List RuntimeEvent) {child : String}
    (hchild : child ≠ "") :
    child ∈ (run applyProjectionEvent p events).activeChildRuns ↔
      match lastAbout p events child with
      | some e => e.eventType ∈ childSpawnTypes
      | none => child ∈ p.activeChildRuns := by
  induction events generalizing p with
  | nil => rfl
  | cons e rest ih =>
    rw [run_cons, ih]
    by_cases hterm : Terminal p
    · have hlast : lastAbout p (e :: rest) child = lastAbout (applyProjectionEvent p e) rest child := by
        simp only [lastAbout, openEvents, hterm, if_true]
      have hsame : (applyProjectionEvent p e).activeChildRuns = p.activeChildRuns :=
        resolveActiveChildRuns_terminal hterm e
      rw [hlast, hsame]
    · by_cases habout : About child e
      · have hlast : lastAbout p (e :: rest) child =
            some ((lastAbout (applyProjectionEvent p e) rest child).getD e) := by
          simp only [lastAbout, openEvents, hterm, if_false]
          rw [List.filter_cons_of_pos (by simpa using habout), List.getLast?_cons]
        have hstep := mem_resolve_of_about hterm hchild habout
        rw [hlast]
        cases lastAbout (applyProjectionEvent p e) rest child with
        | some e' => rfl
        | none => exact hstep
      · have hlast : lastAbout p (e :: rest) child = lastAbout (applyProjectionEvent p e) rest child := by
          simp only [lastAbout, openEvents, hterm, if_false]
          rw [List.filter_cons_of_neg (by simpa using habout)]
        have hstep := mem_resolve_of_not_about (p := p) habout
        rw [hlast]
        cases lastAbout (applyProjectionEvent p e) rest child with
        | some e' => rfl
        | none => exact hstep

/-- **Child tracking.** No child is listed twice, a child with a name is listed
exactly when the last event about it was a spawn, and child events change none of the
lifecycle fields. -/
theorem activeChildRuns_iff_last_spawn (runId : String) (events : List RuntimeEvent) :
    (foldProjection runId events).activeChildRuns.Nodup ∧
      (∀ child, child ≠ "" → (child ∈ (foldProjection runId events).activeChildRuns ↔
        ∃ e, lastAbout (defaultProjection runId) events child = some e ∧
          e.eventType ∈ childSpawnTypes)) ∧
      ∀ p e, e.eventType ∈ childEventTypes →
        (applyProjectionEvent p e).lifecycleState = p.lifecycleState ∧
        (applyProjectionEvent p e).waitingExternal = p.waitingExternal ∧
        (applyProjectionEvent p e).readyForDispatch = p.readyForDispatch ∧
        (applyProjectionEvent p e).recoveryMode = p.recoveryMode ∧
        (applyProjectionEvent p e).recoveryReason = p.recoveryReason := by
  refine ⟨activeChildRuns_nodup runId events, ?_, ?_⟩
  · intro child hchild
    rw [foldProjection, mem_activeChildRuns_run _ _ hchild]
    cases lastAbout (defaultProjection runId) events child with
    | none => simp [defaultProjection]
    | some e => simp
  · intro p e he
    simp [applyProjectionEvent, child_event_keeps_lifecycle p he, projectionUnchangedState]

/-- A child without a name is not tracked, although the last event about it is a
spawn. -/
theorem unnamed_child_not_tracked :
    let events := [factEvent "r" "run.child_spawned" 1 (some [("child_run_id", .str "")])]
    ¬ ("" ∈ (foldProjection "r" events).activeChildRuns ↔
      ∃ e, lastAbout (defaultProjection "r") events "" = some e ∧ e.eventType ∈ childSpawnTypes) := by
  intro events h
  have hlast : lastAbout (defaultProjection "r") events "" = events.getLast? := by rfl
  have hmem := h.mpr ⟨_, hlast, by decide⟩
  cases hmem

end AgentKernel.Projection
