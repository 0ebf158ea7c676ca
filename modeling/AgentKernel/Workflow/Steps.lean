import AgentKernel.Lib.Run
import AgentKernel.Workflow.World

/-! What one step of the world does.

`Taken` lists the ways a label changes the world, so that no later proof unfolds the step
function. The trace says everything about the log: at any time it holds what it started
with and every commit the services have acknowledged since, in order
(`journal_of_trace`). -/
namespace AgentKernel.Workflow
open Lib Dedupe Turns Events Projection Reconcile

section
variable {σ : Type} {K : Kernel σ} {w : World σ}

/-! ### Steps -/

/-- What a label makes of a world. -/
inductive Taken (K : Kernel σ) (w : World σ) : Label → World σ → Prop where
  | idle {l : Label} : Taken K w l w
  | called {entry : Entry} {r : Resumed σ} : enter w.process entry = some r →
    Taken K w (.call entry) (w.launch r)
  | served {i : Nat} {b : Behaviour} {st : Stage} {reply : st.Reply} {services : Services} :
    w.calls[i]? = some (.awaiting st) →
    w.services.answer b w.process.engine.turns st.request = some (reply, services) →
    Taken K w (.serve i b)
      { w with
        services := services
        calls := w.calls.set i (.answered st reply)
        trace := w.trace ++ tagged i [.served st reply] }
  | resumed {i : Nat} {m : Moment} {st : Stage} {reply : st.Reply} :
    w.calls[i]? = some (.answered st reply) →
    Taken K w (.resume i m) (w.follow i (resume K m w.process st reply))
  | startedTurn {c : TurnCall} : Taken K w (.runTurn c)
      { w with process := { w.process with engine := { w.process.engine with
          turns := w.process.engine.turns ++ [Turn.start c.engine c.input c.action] } } }
  | movedTurn {l : Turns.Label} : Taken K w (.turn l)
      { w with process := { w.process with
          engine := w.process.engine.step K.outbox.port K.digest l } }
  | restarted {input : RunInput} : w.process.actor.continuedAs = some input →
    Taken K w .restart
      (({ w with
        calls := w.calls.map World.abandoned
        process := { w.process with actor := ({} : Actor).started input } } : World σ).launch
        { process := { w.process with actor := ({} : Actor).started input }
          next := .await (.starting input) })

theorem step_taken (K : Kernel σ) (w : World σ) (l : Label) : Taken K w l (w.step K l) := by
  cases l with
  | call entry =>
    unfold World.step
    simp only
    split
    · exact .idle
    · rename_i r henter
      exact .called henter
  | serve i b =>
    unfold World.step
    simp only
    split
    · rename_i st hcall
      split
      · rename_i reply services hanswer
        exact .served hcall hanswer
      · exact .idle
    · exact .idle
  | resume i m =>
    unfold World.step
    simp only
    split
    · rename_i st reply hcall
      exact .resumed hcall
    · exact .idle
  | runTurn c => exact .startedTurn
  | turn l => exact .movedTurn
  | restart =>
    unfold World.step
    simp only
    split
    · exact .idle
    · rename_i input hinput
      exact .restarted hinput

/-- A call that can be made is made. -/
theorem step_entered {entry : Entry} {r : Resumed σ} (h : enter w.process entry = some r) :
    w.step K (.call entry) = w.launch r := by
  unfold World.step
  simp only [h]

/-! ### The log -/

/-- The commit a service has taken. -/
def Request.appended? : (q : Request) → Except Raised q.Answer → Option ActionCommit
  | .append commit, .ok _ => some commit
  | _, _ => none

def Note.appended? : Note → Option ActionCommit
  | .served st reply => st.request.appended? reply
  | _ => none

theorem appended_ok {q : Request} {reply : Except Raised q.Answer} {commit : ActionCommit}
    (h : q.appended? reply = some commit) : q = .append commit ∧ ∃ u, reply = .ok u := by
  cases q with
  | append commit' =>
    cases reply with
    | ok u =>
      cases h
      exact ⟨rfl, u, rfl⟩
    | error r => cases h
  | _ => cases h

/-- The commits the services have taken, in order. -/
def appendedCommits (trace : List (Tagged Nat Note)) : List ActionCommit :=
  trace.filterMap (fun o => o.what.appended?)

theorem appendedCommits_append (a b : List (Tagged Nat Note)) :
    appendedCommits (a ++ b) = appendedCommits a ++ appendedCommits b :=
  List.filterMap_append

/-- Calls themselves take nothing. -/
theorem appendedCommits_tagged {i : Nat} {notes : List Note}
    (h : ∀ n ∈ notes, n.appended? = none) : appendedCommits (tagged i notes) = [] := by
  refine List.filterMap_eq_nil_iff.mpr (fun o ho => ?_)
  exact h o.what (who_of_mem_tagged ho).2

theorem project_journal {sv sv' : Services} {runId : String} {through : Option Int} {p : RunProjection}
    (h : sv.project runId through = .ok (p, sv')) : sv'.journal = sv.journal := by
  unfold Services.project at h
  split at h
  · cases h
    rfl
  · cases h

/-- A service that answers has appended what it has taken, and nothing else. -/
theorem perform_journal {sv sv' : Services} {b : Behaviour} {turns : List Turn} {q : Request}
    {reply : Except Raised q.Answer} (h : sv.perform b turns q = some (reply, sv')) :
    sv'.journal = run Journal.append sv.journal (q.appended? reply).toList := by
  cases q with
  | projection runId | catchUp runId offset | readiness runId offset =>
    unfold Services.perform at h
    simp only at h
    split at h
    · rename_i hproject
      cases h
      exact project_journal hproject
    · cases h
      rfl
  | append commit =>
    unfold Services.perform at h
    simp only at h
    split at h
    · cases h
      rfl
    · cases h
      rfl
  | turn index =>
    unfold Services.perform at h
    simp only at h
    split at h
    · cases h
      rfl
    · cases h
      rfl
    · cases h
  | _ =>
    cases h
    rfl

theorem answer_cases {sv sv' : Services} {b : Behaviour} {turns : List Turn} {q : Request}
    {reply : Except Raised q.Answer} (h : sv.answer b turns q = some (reply, sv')) :
    sv.perform b turns q = some (reply, sv') ∨ (∃ r, reply = .error r) ∧ sv' = sv := by
  unfold Services.answer at h
  split at h
  · exact .inl h
  · split at h
    · exact .inl h
    · cases h
      exact .inr ⟨⟨_, rfl⟩, rfl⟩

theorem answer_journal {sv sv' : Services} {b : Behaviour} {turns : List Turn} {q : Request}
    {reply : Except Raised q.Answer} (h : sv.answer b turns q = some (reply, sv')) :
    sv'.journal = run Journal.append sv.journal (q.appended? reply).toList := by
  rcases answer_cases h with h | ⟨⟨r, rfl⟩, rfl⟩
  · exact perform_journal h
  · have hnone : q.appended? (.error r) = none := by
      unfold Request.appended?
      split
      · rename_i heq
        cases heq
      · rfl
    rw [hnone]
    rfl

/-! ### Notes -/

/-- What a call itself says: never what a service answered. -/
def Note.ofCall : Note → Bool
  | .served _ _ => false
  | _ => true

theorem appended?_ofCall {n : Note} (h : n.ofCall = true) : n.appended? = none := by
  cases n with
  | served st reply => cases h
  | _ => rfl

theorem handleSignals_notes (p : Process σ) (signals : List ActorSignal) :
    ∀ n ∈ (handleSignals p signals).notes, n.ofCall = true := by
  induction signals with
  | nil =>
    intro n hn
    cases hn
  | cons s rest ih =>
    intro n hn
    unfold handleSignals at hn
    split at hn
    · cases hn
    · split at hn
      · rcases List.mem_cons.mp hn with rfl | hn
        · rfl
        · exact ih n hn
      · split at hn
        · rcases List.mem_cons.mp hn with rfl | hn
          · rfl
          · exact ih n hn
        · cases hn

theorem processed_notes (m : Moment) (p : Process σ) (delivery : Option Delivery) :
    ∀ n ∈ (processed K m p delivery).notes, n.ofCall = true := by
  intro n hn
  unfold processed at hn
  split at hn
  · cases hn
  · simp only at hn
    split at hn
    · rw [List.mem_singleton.mp hn]
      rfl
    · rcases List.mem_cons.mp hn with rfl | hn
      · rfl
      · exact handleSignals_notes _ _ n hn

/-! ### How a call goes on -/

/-- The stages of carrying out an action, where an `Exception` goes to the handler. -/
inductive Guarded (a : Acting) : Stage → Prop where
  | turning {index : Nat} : Guarded a (.turning a index)
  | outcome {result : TurnResult} {commit : ActionCommit} : Guarded a (.recordingOutcome a result commit)
  | gateBefore {result : TurnResult} : Guarded a (.gateBefore a (.pending result))
  | deciding {result : TurnResult} {before : Int} : Guarded a (.deciding a (.pending result) before)
  | gateAfter {result : TurnResult} {before : Int} {decision : RecoveryDecision} :
    Guarded a (.gateAfter a (.pending result) before decision)
  | recovering {result : TurnResult} {decision : RecoveryDecision} {commit : ActionCommit} :
    Guarded a (.recovering a (.pending result) decision commit)
  | settling {result : TurnResult} {outcome : RecoveryOutcome} :
    Guarded a (.settling a (.pending result) outcome)

/-- One await after the other, with nothing done in between. -/
inductive Follows : Stage → Stage → Prop where
  | recording {d : Delivery} {sequence : Nat} {offset : Int} {now : String} :
    Follows (.signalled d) (.recording d (signalCommit d.runId d.signal sequence offset now))
  | lookingUp {q : Processing} {projection : RunProjection} :
    Follows (.readying q projection) (.lookingUp q projection)
  | marking {q : Processing} {projection : RunProjection} :
    Follows (.lookingUp q projection) (.marking q projection)
  | intending {a : Acting} {index : Nat} {result : TurnResult} {record : TurnIntentRecord} :
    Follows (.turning a index) (.intending a result record)
  | outcome {a : Acting} {index : Nat} {result : TurnResult} {now : String} :
    Follows (.turning a index) (.recordingOutcome a result (turnOutcomeCommit
      a.processing.commit.runId (a.processing.offset + 1) result a.action.actionId now))
  | intended {a : Acting} {result : TurnResult} {record : TurnIntentRecord} {now : String} :
    Follows (.intending a result record) (.recordingOutcome a result (turnOutcomeCommit
      a.processing.commit.runId (a.processing.offset + 1) result a.action.actionId now))
  | pending {a : Acting} {result : TurnResult} {commit : ActionCommit} :
    Follows (.recordingOutcome a result commit) (.gateBefore a (.pending result))
  | handler {a : Acting} {st : Stage} {e : PyError} : Guarded a st →
    Follows st (.gateBefore a (.failed e))
  | deciding {a : Acting} {round : Round} {before : Int} :
    Follows (.gateBefore a round) (.deciding a round before)
  | gateAfter {a : Acting} {round : Round} {before : Int} {decision : RecoveryDecision} :
    Follows (.deciding a round before) (.gateAfter a round before decision)
  | recovering {a : Acting} {round : Round} {before : Int} {decision : RecoveryDecision}
      {now : String} :
    Follows (.gateAfter a round before decision) (.recovering a round decision (recoveryCommit
      a.processing.commit.runId (round.offset a.processing) decision a.action.actionId now))
  | settling {a : Acting} {round : Round} {decision : RecoveryDecision} {commit : ActionCommit}
      {outcome : RecoveryOutcome} :
    Follows (.recovering a round decision commit) (.settling a round outcome)

/-- The stages after which `process_action_commit` returns. -/
inductive Returns : Stage → Processing → Prop where
  | unready {q : Processing} {projection : RunProjection} : Returns (.readying q projection) q
  | repeated {q : Processing} {projection : RunProjection} : Returns (.lookingUp q projection) q
  | idle {q : Processing} {projection : RunProjection} : Returns (.marking q projection) q
  | outcome {a : Acting} {result : TurnResult} {commit : ActionCommit} :
    Returns (.recordingOutcome a result commit) a.processing
  | recovered {a : Acting} {result : TurnResult} {decision : RecoveryDecision}
      {commit : ActionCommit} : Returns (.recovering a (.pending result) decision commit) a.processing
  | settled {a : Acting} {result : TurnResult} {outcome : RecoveryOutcome} :
    Returns (.settling a (.pending result) outcome) a.processing

/-- The commit a stage of `process_action_commit` is about. -/
def Stage.processing? : Stage → Option Processing
  | .catchingUp q | .readying q _ | .lookingUp q _ | .marking q _ => some q
  | .turning a _ | .intending a _ _ | .recordingOutcome a _ _ | .gateBefore a _ | .deciding a _ _
  | .gateAfter a _ _ _ | .recovering a _ _ _ | .settling a _ _ => some a.processing
  | _ => none

theorem Guarded.processing {a : Acting} {st : Stage} (h : Guarded a st) : st.processing? = some a.processing := by
  cases h <;> rfl

theorem Returns.processing {st : Stage} {q : Processing} (h : Returns st q) : st.processing? = some q := by
  cases h <;> rfl

/-- All that continuing a call can come to. -/
inductive Continued (K : Kernel σ) (m : Moment) (p : Process σ) : (st : Stage) → st.Reply →
    Resumed σ → Prop where
  | ended {st : Stage} {reply : st.Reply} {r : Except Raised Unit} :
    Continued K m p st reply { process := p, next := .end r }
  | awaits {st st' : Stage} {reply : st.Reply} : Follows st st' →
    Continued K m p st reply { process := p, next := .await st' }
  | started {input : RunInput} {projection : RunProjection} : input.policyVersions = none →
    Continued K m p (.starting input) (.ok projection)
      (replayPending { p with actor := { p.actor with lastProjection := some projection } } input)
  | pins {input : RunInput} {projection : RunProjection} {versions : RunPolicyVersions} :
    input.policyVersions = some versions →
    Continued K m p (.starting input) (.ok projection)
      { process := { p with actor := { p.actor with lastProjection := some projection } }
        next := .await (.pinning input (policyPinnedCommit input.runId versions m.now)) }
  | pinned {input : RunInput} {commit : ActionCommit} :
    Continued K m p (.pinning input commit) (.ok ()) (replayPending p input)
  | recorded {d : Delivery} {commit : ActionCommit} :
    Continued K m p (.recording d commit) (.ok ())
      { process := { p with actor := { p.actor with
          seenSignalTokens := d.signal.token?.toList ++ p.actor.seenSignalTokens } }
        next := processActionCommit commit (some d) }
  | caughtUp {q : Processing} {projection : RunProjection} :
    Continued K m p (.catchingUp q) (.ok projection)
      { process := { p with actor := { p.actor with lastProjection := some projection } }
        next := .await (.readying q projection) }
  | returned {st : Stage} {reply : st.Reply} {q : Processing} : Returns st q →
    Continued K m p st reply (processed K m p q.delivery)
  | acts {q : Processing} {projection : RunProjection} {action : Action} :
    q.commit.action = some action →
    Continued K m p (.marking q projection) (.ok ()) (startTurn K p ⟨q, projection, action⟩)
  | unintended {a : Acting} {result : TurnResult} {record : TurnIntentRecord} {e : PyError} :
    Continued K m p (.intending a result record) (.error (.exception e))
      { process := rollBack K p result, next := .await (.gateBefore a (.failed e)) }
  | unrecorded {a : Acting} {result : TurnResult} {commit : ActionCommit} {e : PyError} :
    Continued K m p (.recordingOutcome a result commit) (.error (.exception e))
      { process := rollBack K p result, next := .await (.gateBefore a (.failed e)) }
  | sweeps {runId : String} {rest : List String} {reply : Stage.Reply (.sweeping runId rest)}
      {loaded : Except PyError (List RuntimeEvent)} :
    (∀ events, loaded = .ok events → reply = .ok events) →
    Continued K m p (.sweeping runId rest) reply (sweepRun K p runId rest loaded)

section
variable {m : Moment} {p : Process σ}

theorem continued_failed {st : Stage} {reply : st.Reply} {a : Acting} (h : Guarded a st) (r : Raised) :
    Continued K m p st reply (actionFailed p a r) := by
  cases r with
  | exception e => exact .awaits (.handler h)
  | exit name => exact .ended

/-- A stage of a recovery round is guarded in the round of a turn that asks for it. -/
theorem continued_round (st : Round → Stage) {round : Round} {reply : (st round).Reply} {a : Acting}
    (h : ∀ result, Guarded a (st (.pending result))) (r : Raised) :
    Continued K m p (st round) reply (roundFailed p a round r) := by
  cases round with
  | pending result => exact continued_failed (h result) r
  | failed err => exact .ended

theorem continued_done (st : Round → Stage) {round : Round} {reply : (st round).Reply} {a : Acting}
    (h : ∀ result, Returns (st (.pending result)) a.processing) :
    Continued K m p (st round) reply (roundDone K m p a round) := by
  cases round with
  | pending result => exact .returned (h result)
  | failed err => exact .ended

end

/-- **Continuing a call comes to one of the listed outcomes.** -/
theorem resume_continued (K : Kernel σ) (m : Moment) (p : Process σ) (st : Stage) (reply : st.Reply) :
    Continued K m p st reply (resume K m p st reply) := by
  unfold resume
  split
  · simp only
    split
    · rename_i hversions
      exact .started hversions
    · rename_i versions hversions
      exact .pins hversions
  · exact .pinned
  · exact .awaits .recording
  · exact .recorded
  · exact .caughtUp
  · exact .awaits .lookingUp
  · exact .returned .unready
  · exact .returned .repeated
  · exact .awaits .marking
  · split
    · exact .returned .idle
    · rename_i action haction
      exact .acts haction
  · unfold turnReturned
    split
    · exact .awaits .outcome
    · split
      · exact .awaits .intending
      · exact .awaits .outcome
  · exact continued_failed .turning _
  · exact .awaits .intended
  · exact .unintended
  · split
    · exact continued_failed .outcome _
    · split
      · exact .awaits .pending
      · exact .returned .outcome
  · exact .unrecorded
  · exact .awaits .deciding
  · rename_i a round r
    exact continued_round (fun r => .gateBefore a r) (fun _ => .gateBefore) r
  · exact .awaits .gateAfter
  · rename_i a round before r
    exact continued_round (fun r => .deciding a r before) (fun _ => .deciding) r
  · rename_i a round before decision after
    split
    · exact continued_round (fun r => .gateAfter a r before decision) (fun _ => .gateAfter) _
    · split
      · exact continued_round (fun r => .gateAfter a r before decision) (fun _ => .gateAfter) _
      · exact .awaits .recovering
  · rename_i a round before decision r
    exact continued_round (fun r => .gateAfter a r before decision) (fun _ => .gateAfter) r
  · rename_i a round decision commit
    split
    · exact .awaits .settling
    · exact continued_done (fun r => .recovering a r decision commit) (fun _ => .recovered)
  · rename_i a round decision commit r
    exact continued_round (fun r => .recovering a r decision commit) (fun _ => .recovering) r
  · rename_i a round outcome
    exact continued_done (fun r => .settling a r outcome) (fun _ => .settled)
  · rename_i a round outcome r
    exact continued_round (fun r => .settling a r outcome) (fun _ => .settling) r
  · exact .ended
  · exact .sweeps (fun _ h => by cases h; rfl)
  · exact .sweeps (fun _ h => nomatch h)
  · exact .ended

theorem rollBack_actor (p : Process σ) (result : TurnResult) : (rollBack K p result).actor = p.actor := by
  unfold rollBack
  split <;> rfl

theorem sweepOn_notes (p : Process σ) (runIds : List String) : (sweepOn p runIds).notes = [] := by
  cases runIds <;> rfl

theorem resume_notes (m : Moment) (p : Process σ) (st : Stage) (reply : st.Reply) :
    ∀ n ∈ (resume K m p st reply).notes, n.ofCall = true := by
  intro n hn
  have hcont := resume_continued K m p st reply
  generalize resume K m p st reply = r at hn hcont
  cases hcont with
  | started _ => exact handleSignals_notes _ _ n hn
  | pinned => exact handleSignals_notes _ _ n hn
  | returned _ => exact processed_notes m p _ n hn
  | sweeps _ =>
    unfold sweepRun at hn
    split at hn
    · rcases List.mem_cons.mp hn with rfl | hn
      · rfl
      · rw [sweepOn_notes] at hn
        cases hn
    · cases hn
  | _ => cases hn

theorem enter_notes {p : Process σ} {entry : Entry} {r : Resumed σ} (h : enter p entry = some r) :
    ∀ n ∈ r.notes, n.ofCall = true := by
  intro n hn
  cases entry with
  | run input =>
    unfold enter at h
    simp only at h
    split at h
    · cases h
    · cases h
      cases hn
  | signal s =>
    unfold enter at h
    simp only at h
    split at h
    · cases h
      cases hn
    · cases h
      exact handleSignals_notes _ _ n hn
  | processActionCommit commit | write commit =>
    cases h
    cases hn
  | reconcileOnce runIds =>
    cases h
    rw [sweepOn_notes] at hn
    cases hn

/-- A step adds to the log what it adds to the trace. -/
theorem step_journal (K : Kernel σ) (w : World σ) (l : Label) :
    ∃ new, (w.step K l).trace = w.trace ++ new ∧
      (w.step K l).services.journal = run Journal.append w.services.journal (appendedCommits new) := by
  have htaken := step_taken K w l
  generalize w.step K l = w' at htaken
  have hquiet : ∀ (i : Nat) (notes : List Note), (∀ n ∈ notes, n.ofCall = true) →
      w.services.journal = run Journal.append w.services.journal (appendedCommits (tagged i notes)) := by
    intro i notes hnotes
    rw [appendedCommits_tagged (fun n hn => appended?_ofCall (hnotes n hn))]
    rfl
  cases htaken with
  | idle => exact ⟨[], (List.append_nil _).symm, rfl⟩
  | called henter => exact ⟨_, rfl, hquiet _ _ (enter_notes henter)⟩
  | served hcall hanswer =>
    refine ⟨_, rfl, ?_⟩
    rw [answer_journal hanswer]
    rfl
  | resumed hcall => exact ⟨_, rfl, hquiet _ _ (resume_notes _ _ _ _)⟩
  | startedTurn => exact ⟨[], (List.append_nil _).symm, rfl⟩
  | movedTurn => exact ⟨[], (List.append_nil _).symm, rfl⟩
  | restarted hinput => exact ⟨_, rfl, hquiet _ _ (fun _ hn => nomatch hn)⟩

/-- Nothing is taken back from the trace. -/
theorem mem_trace_run (K : Kernel σ) {w : World σ} {note : Tagged Nat Note} (h : note ∈ w.trace)
    (labels : List Label) : note ∈ (run (World.step K) w labels).trace := by
  refine run_invariant (I := fun w : World σ => note ∈ w.trace) (fun w l hw => ?_) h labels
  obtain ⟨new, htrace, _⟩ := step_journal K w l
  rw [htrace]
  exact List.mem_append_left new hw

/-- **The log is what the trace says was appended.** -/
theorem journal_of_trace (K : Kernel σ) (journal : Journal) (store : σ) (labels : List Label) :
    (run (World.step K) (World.fresh journal store) labels).services.journal =
      run Journal.append journal
        (appendedCommits (run (World.step K) (World.fresh journal store) labels).trace) := by
  refine run_invariant (I := fun w : World σ =>
    w.services.journal = run Journal.append journal (appendedCommits w.trace)) ?_ rfl labels
  intro w l hw
  obtain ⟨new, htrace, hjournal⟩ := step_journal K w l
  rw [hjournal, htrace, appendedCommits_append, run_append, ← hw]

/-! ### One call -/

/-- What a step of the world is for one of its calls. -/
inductive CallStep (K : Kernel σ) (w : World σ) : Status → Status → List Note → Prop where
  | still {x : Status} : CallStep K w x x []
  | served {st : Stage} {reply : st.Reply} {b : Behaviour} {services : Services} :
    w.services.answer b w.process.engine.turns st.request = some (reply, services) →
    CallStep K w (.awaiting st) (.answered st reply) [.served st reply]
  | resumed {st : Stage} {reply : st.Reply} {m : Moment} :
    CallStep K w (.answered st reply) (resume K m w.process st reply).next.status
      (resume K m w.process st reply).notes

theorem historyOf_other {i j : Nat} (h : i ≠ j) (trace : List (Tagged Nat Note)) (notes : List Note) :
    historyOf i (trace ++ tagged j notes) = historyOf i trace ++ [] := by
  rw [historyOf_extend, if_neg h]

theorem historyOf_self (i : Nat) (trace : List (Tagged Nat Note)) (notes : List Note) :
    historyOf i (trace ++ tagged i notes) = historyOf i trace ++ notes := by
  rw [historyOf_extend, if_pos rfl]

/-- A step moves a call or leaves it alone. -/
theorem step_call {i : Nat} {x : Status} (hx : w.calls[i]? = some x) {l : Label} (hl : l ≠ .restart) :
    ∃ y new, CallStep K w x y new ∧ (w.step K l).calls[i]? = some y ∧
      historyOf i (w.step K l).trace = historyOf i w.trace ++ new := by
  have htaken := step_taken K w l
  generalize w.step K l = w' at htaken
  obtain ⟨hlt, -⟩ := List.getElem?_eq_some_iff.mp hx
  cases htaken with
  | idle => exact ⟨x, [], .still, hx, (List.append_nil _).symm⟩
  | @called entry r henter =>
    refine ⟨x, [], .still, ?_, historyOf_other (Nat.ne_of_lt hlt) _ _⟩
    show (w.calls ++ [r.next.status])[i]? = some x
    rw [List.getElem?_append_left hlt]
    exact hx
  | @served j b st reply services hcall hanswer =>
    by_cases hij : i = j
    · subst hij
      rw [hx] at hcall
      cases hcall
      exact ⟨_, _, .served hanswer, List.getElem?_set_self hlt, historyOf_self i _ _⟩
    · refine ⟨x, [], .still, ?_, historyOf_other hij _ _⟩
      show (w.calls.set j _)[i]? = some x
      rw [List.getElem?_set_ne (Ne.symm hij)]
      exact hx
  | @resumed j m st reply hcall =>
    by_cases hij : i = j
    · subst hij
      rw [hx] at hcall
      cases hcall
      exact ⟨_, _, .resumed, List.getElem?_set_self hlt, historyOf_self i _ _⟩
    · refine ⟨x, [], .still, ?_, historyOf_other hij _ _⟩
      show (w.calls.set j _)[i]? = some x
      rw [List.getElem?_set_ne (Ne.symm hij)]
      exact hx
  | startedTurn => exact ⟨x, [], .still, hx, (List.append_nil _).symm⟩
  | movedTurn => exact ⟨x, [], .still, hx, (List.append_nil _).symm⟩
  | restarted _ => exact absurd rfl hl

/-- Nothing is noted of calls that have not been made. -/
def Unheard (w : World σ) : Prop := ∀ i, w.calls.length ≤ i → historyOf i w.trace = []

theorem unheard_extend {w' : World σ} (h : Unheard w) {j n : Nat} {notes : List Note}
    (htrace : w'.trace = w.trace ++ tagged j notes) (hn : w'.calls.length = n)
    (hlen : w.calls.length ≤ n) (hj : j < n) : Unheard w' := by
  intro i hi
  rw [htrace, historyOf_other (by omega), List.append_nil]
  exact h i (by omega)

theorem unheard_step (h : Unheard w) (l : Label) : Unheard (w.step K l) := by
  have htaken := step_taken K w l
  generalize w.step K l = w' at htaken
  cases htaken with
  | idle => exact h
  | called henter => exact unheard_extend h rfl List.length_append (by simp) (by simp)
  | served hcall hanswer =>
    obtain ⟨hlt, -⟩ := List.getElem?_eq_some_iff.mp hcall
    exact unheard_extend h rfl List.length_set (Nat.le_refl _) hlt
  | resumed hcall =>
    obtain ⟨hlt, -⟩ := List.getElem?_eq_some_iff.mp hcall
    exact unheard_extend h rfl List.length_set (Nat.le_refl _) hlt
  | startedTurn => exact h
  | movedTurn => exact h
  | restarted _ => exact unheard_extend h rfl List.length_append (by simp) (by simp)

theorem unheard_run (K : Kernel σ) (journal : Journal) (store : σ) (labels : List Label) :
    Unheard (run (World.step K) (World.fresh journal store) labels) := by
  have hfresh : Unheard (World.fresh journal store) := fun _ _ => rfl
  exact run_invariant (I := Unheard) (fun _ l h => unheard_step h l) hfresh labels

/-- **What holds of a call as it is made and is kept by everything it can do, holds of it
ever after.** -/
theorem call_invariant {I : Status → List Note → Prop} (K : Kernel σ) (w : World σ) (i : Nat)
    {x : Status} (hx : w.calls[i]? = some x) (hstart : I x (historyOf i w.trace))
    (hstep : ∀ (v : World σ) (x y : Status) (h new : List Note), CallStep K v x y new → I x h →
      I y (h ++ new))
    (labels : List Label) (hinstance : .restart ∉ labels) :
    ∃ y, (run (World.step K) w labels).calls[i]? = some y ∧
      I y (historyOf i (run (World.step K) w labels).trace) := by
  refine run_invariant_of (I := fun w : World σ => ∃ y, w.calls[i]? = some y ∧
    I y (historyOf i w.trace)) (A := fun l => l ≠ .restart) ?_ ⟨x, hx, hstart⟩ labels
    (fun l hl hr => hinstance (hr ▸ hl))
  intro v l hl hv
  obtain ⟨x, hx, hinv⟩ := hv
  obtain ⟨y, new, hcall, hy, hhistory⟩ := step_call (K := K) hx hl
  refine ⟨y, hy, ?_⟩
  rw [hhistory]
  exact hstep v x y _ new hcall hinv

end
end AgentKernel.Workflow
