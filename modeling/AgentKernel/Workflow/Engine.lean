import AgentKernel.Workflow.Steps

/-! What the world does to the turn engine and its dedupe store.

The engine's turns are stepped and new ones are started; apart from the turns, only two
things write to the dedupe store: the roll-back of a turn whose outcome could not be
recorded, and reconciliation passes (`step_engine`). Hence what every call of the store
keeps, every step of the world keeps (`step_store_preserves`). -/
namespace AgentKernel.Workflow
open Lib Dedupe Turns Events Projection Reconcile

/-- The outcome of a turn could not be recorded: the intent or the outcome itself. -/
inductive Unrecorded (result : TurnResult) : (st : Stage) → st.Reply → Prop where
  | intent {a : Acting} {record : TurnIntentRecord} {r : Raised} :
    Unrecorded result (.intending a result record) (.error r)
  | outcome {a : Acting} {commit : ActionCommit} {r : Raised} :
    Unrecorded result (.recordingOutcome a result commit) (.error r)

section
variable {σ : Type} {K : Kernel σ} {w : World σ}

/-- What a label makes of the engine. -/
inductive EngineStep (K : Kernel σ) (w : World σ) : Label → System σ → Prop where
  | same {l : Label} : EngineStep K w l w.process.engine
  | moved {l : Turns.Label} :
    EngineStep K w (.turn l) (w.process.engine.step K.outbox.port K.digest l)
  | started {l : Label} (c : TurnCall) : EngineStep K w l { w.process.engine with
      turns := w.process.engine.turns ++ [Turn.start c.engine c.input c.action] }
  | rolledBack {i : Nat} {m : Moment} {st : Stage} {reply : st.Reply} {result : TurnResult}
      {key : String} : w.calls[i]? = some (.answered st reply) → Unrecorded result st reply →
    result.dispatchDedupeKey = some key →
    EngineStep K w (.resume i m) { w.process.engine with
      store := (K.outbox.port.markUnknownEffect key).suppress.after w.process.engine.store }
  | swept {i : Nat} {m : Moment} {runId : String} {rest : List String}
      {reply : Stage.Reply (.sweeping runId rest)} {loaded : Except PyError (List RuntimeEvent)} :
    w.calls[i]? = some (.answered (.sweeping runId rest) reply) →
    (∀ events, loaded = .ok events → reply = .ok events) →
    EngineStep K w (.resume i m) { w.process.engine with
      store := (reconcileLoaded K.outbox runId loaded).after w.process.engine.store }

theorem handleSignals_engine (p : Process σ) (signals : List ActorSignal) :
    (handleSignals p signals).process.engine = p.engine := by
  induction signals with
  | nil => rfl
  | cons s rest ih =>
    unfold handleSignals
    split
    · rfl
    · split
      · exact ih
      · split
        · exact ih
        · rfl

theorem processed_engine (m : Moment) (p : Process σ) (delivery : Option Delivery) :
    (processed K m p delivery).process.engine = p.engine := by
  unfold processed
  split
  · rfl
  · simp only
    split
    · rfl
    · exact handleSignals_engine _ _

theorem sweepRun_engine (p : Process σ) (runId : String) (rest : List String)
    (loaded : Except PyError (List RuntimeEvent)) :
    (sweepRun K p runId rest loaded).process.engine = { p.engine with
      store := (reconcileLoaded K.outbox runId loaded).after p.engine.store } := by
  unfold sweepRun Call.after
  cases reconcileLoaded K.outbox runId loaded p.engine.store with
  | ok result store => cases rest <;> rfl
  | error e store => rfl

theorem rollBack_engine {i : Nat} {m : Moment} {st : Stage} {reply : st.Reply} {result : TurnResult}
    (hcall : w.calls[i]? = some (.answered st reply)) (hlost : Unrecorded result st reply) :
    EngineStep K w (.resume i m) (rollBack K w.process result).engine := by
  unfold rollBack
  split
  · exact .same
  · rename_i key hkey
    exact .rolledBack hcall hlost hkey

theorem resume_engine {i : Nat} {st : Stage} {reply : st.Reply}
    (hcall : w.calls[i]? = some (.answered st reply)) (m : Moment) :
    EngineStep K w (.resume i m) (resume K m w.process st reply).process.engine := by
  have hcont := resume_continued K m w.process st reply
  generalize resume K m w.process st reply = r at hcont
  cases hcont with
  | ended => exact .same
  | awaits _ => exact .same
  | started _ =>
    show EngineStep K w _ (handleSignals _ _).process.engine
    rw [handleSignals_engine]
    exact .same
  | pins _ => exact .same
  | pinned =>
    show EngineStep K w _ (handleSignals _ _).process.engine
    rw [handleSignals_engine]
    exact .same
  | recorded => exact .same
  | caughtUp => exact .same
  | returned _ =>
    rw [processed_engine]
    exact .same
  | acts _ => exact .started ⟨_, _, _⟩
  | unintended => exact rollBack_engine hcall .intent
  | unrecorded => exact rollBack_engine hcall .outcome
  | sweeps hloaded =>
    rw [sweepRun_engine]
    exact .swept hcall hloaded

theorem enter_engine {p : Process σ} {entry : Entry} {r : Resumed σ} (h : enter p entry = some r) :
    r.process.engine = p.engine := by
  cases entry with
  | run input =>
    unfold enter at h
    simp only at h
    split at h
    · cases h
    · cases h
      rfl
  | signal s =>
    unfold enter at h
    simp only at h
    split at h
    · cases h
      rfl
    · cases h
      exact handleSignals_engine _ _
  | processActionCommit commit | write commit =>
    cases h
    rfl
  | reconcileOnce runIds =>
    cases h
    cases runIds <;> rfl

/-- **Every step of the world is one of the listed steps of the engine.** -/
theorem step_engine (K : Kernel σ) (w : World σ) (l : Label) :
    EngineStep K w l (w.step K l).process.engine := by
  have htaken := step_taken K w l
  generalize w.step K l = w' at htaken
  cases htaken with
  | idle => exact .same
  | called henter =>
    show EngineStep K w _ (Process.engine (Resumed.process _))
    rw [enter_engine henter]
    exact .same
  | served hcall hanswer => exact .same
  | resumed hcall => exact resume_engine hcall _
  | startedTurn => exact .started _
  | movedTurn => exact .moved
  | restarted _ => exact .same

/-- What every call of the store keeps, every step of the world keeps. -/
theorem step_store_preserves {P : σ → Prop} (h : PortPreserves K.outbox.port P) (l : Label)
    (hw : P w.process.engine.store) : P (w.step K l).process.engine.store := by
  have hstep := step_engine K w l
  generalize (w.step K l).process.engine = e at hstep
  cases hstep with
  | same => exact hw
  | moved => exact step_preserves h K.digest hw _
  | started c => exact hw
  | rolledBack hcall hlost hkey => exact (preserves_markUnknownEffect h _).suppress _ hw
  | swept hcall hloaded => exact reconcileLoaded_preserves h _ _ _ hw

/-- Nothing is taken back from the engine's trace. -/
theorem mem_engineTrace_run (K : Kernel σ) {w : World σ} {o : Observation}
    (h : o ∈ w.process.engine.trace) (labels : List Label) :
    o ∈ (run (World.step K) w labels).process.engine.trace := by
  refine run_invariant (I := fun w : World σ => o ∈ w.process.engine.trace) (fun w l hw => ?_) h labels
  have hstep := step_engine K w l
  generalize (w.step K l).process.engine = e at hstep
  cases hstep with
  | @moved l =>
    obtain ⟨new, htrace⟩ := step_trace w.process.engine l
    rw [htrace]
    exact List.mem_append_left _ hw
  | same | started c | rolledBack hcall hlost hkey | swept hcall hloaded => exact hw

/-! ### Turns that ended -/

/-- An ended turn stays as it is. -/
theorem finished_step {e : System σ} (port : DedupeStorePort σ) (H : Digest) (l : Turns.Label) {k : Nat}
    {t : Turn} {o : TurnOutcome} (ht : e.turns[k]? = some t) (ho : t.progress = .finished o) :
    (e.step port H l).turns[k]? = some t := by
  unfold System.step
  cases hturn : e.turns[l.turn]? with
  | none => exact ht
  | some u =>
    by_cases hk : l.turn = k
    · subst hk
      obtain rfl : u = t := Option.some.inj (hturn.symm.trans ht)
      obtain ⟨hlt, -⟩ := List.getElem?_eq_some_iff.mp hturn
      show (e.turns.set _ _)[l.turn]? = some u
      rw [List.getElem?_set_self hlt]
      have hmove : (u.move port H l.ports e.store).1 =
          { events := u.events, progress := .finished o } := by
        simp only [Turn.move, advance, ho]
        rfl
      rw [hmove, Turn.after, ← ho]
    · show (e.turns.set _ _)[k]? = some t
      rw [List.getElem?_set_ne hk]
      exact ht

theorem step_finished {k : Nat} {t : Turn} {o : TurnOutcome} (l : Label)
    (ht : w.process.engine.turns[k]? = some t) (ho : t.progress = .finished o) :
    (w.step K l).process.engine.turns[k]? = some t := by
  have hstep := step_engine K w l
  generalize (w.step K l).process.engine = e at hstep
  cases hstep with
  | same => exact ht
  | moved => exact finished_step _ _ _ ht ho
  | started c =>
    obtain ⟨hlt, -⟩ := List.getElem?_eq_some_iff.mp ht
    show (w.process.engine.turns ++ _)[k]? = some t
    rw [List.getElem?_append_left hlt]
    exact ht
  | rolledBack hcall hlost hkey => exact ht
  | swept hcall hloaded => exact ht

/-- What a call was told about its turn is how the turn ended. -/
def TurnsTold (w : World σ) : Prop :=
  ∀ (i : Nat) (a : Acting) (k : Nat) (result : TurnResult),
    ⟨i, .served (.turning a k) (.ok result)⟩ ∈ w.trace →
    ∃ t, w.process.engine.turns[k]? = some t ∧ t.progress = .finished (.returned result)

theorem answer_turn {sv sv' : Services} {b : Behaviour} {turns : List Turn} {a : Acting} {k : Nat}
    {result : TurnResult}
    (h : sv.answer b turns (Stage.turning a k).request = some (.ok result, sv')) :
    ∃ t, turns[k]? = some t ∧ t.progress = .finished (.returned result) := by
  have hperform : sv.perform b turns (.turn k) = some (.ok result, sv') := h
  unfold Services.perform at hperform
  simp only at hperform
  split at hperform
  · rename_i engine input events result' hturn
    cases hperform
    exact ⟨_, hturn, rfl⟩
  · cases hperform
  · cases hperform

theorem turnsTold_step (h : TurnsTold w) (l : Label) : TurnsTold (w.step K l) := by
  intro i a k result hmem
  have hold : ⟨i, .served (.turning a k) (.ok result)⟩ ∈ w.trace →
      ∃ t, (w.step K l).process.engine.turns[k]? = some t ∧
        t.progress = .finished (.returned result) := by
    intro hmem
    obtain ⟨t, ht, ho⟩ := h i a k result hmem
    exact ⟨t, step_finished l ht ho, ho⟩
  have hcalls : ∀ (j : Nat) (notes : List Note), (∀ n ∈ notes, n.ofCall = true) →
      ⟨i, .served (.turning a k) (.ok result)⟩ ∈ w.trace ++ tagged j notes →
      ∃ t, (w.step K l).process.engine.turns[k]? = some t ∧
        t.progress = .finished (.returned result) := by
    intro j notes hnotes hmem
    rcases List.mem_append.mp hmem with hmem | hmem
    · exact hold hmem
    · cases hnotes _ (who_of_mem_tagged hmem).2
  have htaken := step_taken K w l
  generalize hw' : w.step K l = w' at htaken hmem hold hcalls
  cases htaken with
  | idle => exact hold hmem
  | called henter => exact hcalls _ _ (enter_notes henter) hmem
  | served hcall hanswer =>
    rcases List.mem_append.mp hmem with hmem | hmem
    · exact hold hmem
    · have hnote := List.mem_singleton.mp (who_of_mem_tagged hmem).2
      cases hnote
      obtain ⟨t, ht, ho⟩ := answer_turn hanswer
      exact ⟨t, ht, ho⟩
  | resumed hcall => exact hcalls _ _ (resume_notes _ _ _ _) hmem
  | startedTurn => exact hold hmem
  | movedTurn => exact hold hmem
  | restarted _ =>
    refine hcalls _ [] ?_ hmem
    intro n hn
    cases hn

theorem turnsTold_run (K : Kernel σ) (journal : Journal) (store : σ) (labels : List Label) :
    TurnsTold (run (World.step K) (World.fresh journal store) labels) := by
  have hfresh : TurnsTold (World.fresh journal store) := fun _ _ _ _ hmem => nomatch hmem
  exact run_invariant (I := TurnsTold) (fun _ l h => turnsTold_step h l) hfresh labels

end
end AgentKernel.Workflow
