import AgentKernel.Workflow.Signals

/-! One event for each signal.

Every signal the world knows of was delivered to it (`Sourced`). So when the signals
delivered have a token of their own for each type and cause, and no two deliveries under
one token overlap, the log holds at most one event for each pair of type and cause, and
exactly one as soon as a delivery of the pair has returned
(`signals_recorded_exactly_once`). Two deliveries that overlap both pass the look-up and
are both recorded (`overlapping_deliveries_recorded_twice`). -/
namespace AgentKernel.Workflow
open Lib Dedupe Turns Events Projection Reconcile

/-! ### Where signals come from -/

def Delivery.signals (d : Delivery) : List ActorSignal := d.signal :: d.rest

/-- The signals a stage has in hand. -/
def Stage.signals (st : Stage) : List ActorSignal :=
  match st with
  | .starting input | .pinning input _ => input.pendingSignals.getD []
  | _ => ((st.held?.or st.marked?).map Delivery.signals).getD []

def Note.signals : Note → List ActorSignal
  | .served st _ => st.signals
  | .rejected s | .suppressed s | .handled s => [s]
  | _ => []

def Next.signals : Next → List ActorSignal
  | .await st => st.signals
  | .end _ => []

def Status.signals (x : Status) : List ActorSignal := (x.stage?.map Stage.signals).getD []

def Entry.signals : Entry → List ActorSignal
  | .run input => input.pendingSignals.getD []
  | .signal s => [s]
  | _ => []

/-- The signals that are delivered by a run's labels. -/
def delivered (labels : List Label) : List ActorSignal :=
  labels.flatMap (fun l =>
    match l with
    | .call entry => entry.signals
    | _ => [])

section
variable {σ : Type} {K : Kernel σ} {P : ActorSignal → Prop}

/-- A call that was continued has only such signals. -/
structure Resumed.Sourced (P : ActorSignal → Prop) (r : Resumed σ) : Prop where
  pending : ∀ s ∈ r.process.actor.pendingSignals, P s
  next : ∀ s ∈ r.next.signals, P s
  notes : ∀ n ∈ r.notes, ∀ s ∈ n.signals, P s

structure Sourced (P : ActorSignal → Prop) (w : World σ) : Prop where
  pending : ∀ s ∈ w.process.actor.pendingSignals, P s
  calls : ∀ x ∈ w.calls, ∀ s ∈ x.signals, P s
  notes : ∀ o ∈ w.trace, ∀ s ∈ o.what.signals, P s

theorem sourced_end {p : Process σ} (hp : ∀ s ∈ p.actor.pendingSignals, P s) (r : Except Raised Unit) :
    Resumed.Sourced P { process := p, next := .end r } :=
  ⟨hp, (fun _ h => nomatch h), (fun _ h => nomatch h)⟩

theorem sourced_await {p : Process σ} (hp : ∀ s ∈ p.actor.pendingSignals, P s) {st : Stage}
    (hst : ∀ s ∈ st.signals, P s) : Resumed.Sourced P { process := p, next := .await st } :=
  ⟨hp, hst, (fun _ h => nomatch h)⟩

theorem Resumed.Sourced.cons {r : Resumed σ} (h : r.Sourced P) {n : Note} (hn : ∀ s ∈ n.signals, P s) :
    Resumed.Sourced P { r with notes := n :: r.notes } where
  pending := h.pending
  next := h.next
  notes := by
    intro n' hn'
    rcases List.mem_cons.mp hn' with rfl | hn'
    · exact hn
    · exact h.notes n' hn'

theorem handleSignals_sourced {p : Process σ} (hp : ∀ s ∈ p.actor.pendingSignals, P s)
    {signals : List ActorSignal} (hsignals : ∀ s ∈ signals, P s) :
    (handleSignals p signals).Sourced P := by
  induction signals with
  | nil => exact sourced_end hp _
  | cons s rest ih =>
    have ih := ih (fun s' hs' => hsignals s' (List.mem_cons_of_mem s hs'))
    have hs : ∀ s' ∈ [s], P s' := by
      intro s' hs'
      rw [List.mem_singleton.mp hs']
      exact hsignals s List.mem_cons_self
    unfold handleSignals
    split
    · exact sourced_end hp _
    · split
      · exact ih.cons hs
      · split
        · exact ih.cons hs
        · exact sourced_await (p := { p with actor := { p.actor with
            signalSequence := p.actor.signalSequence + 1 } }) hp hsignals

theorem replayPending_sourced {p : Process σ} (hp : ∀ s ∈ p.actor.pendingSignals, P s)
    {input : RunInput} (hinput : ∀ s ∈ input.pendingSignals.getD [], P s) :
    (replayPending p input).Sourced P := by
  refine handleSignals_sourced (fun _ h => nomatch h) (fun s hs => ?_)
  rcases List.mem_append.mp hs with hs | hs
  · exact hp s hs
  · exact hinput s hs

theorem processed_sourced (m : Moment) {p : Process σ} (hp : ∀ s ∈ p.actor.pendingSignals, P s)
    {delivery : Option Delivery} (hd : ∀ d, delivery = some d → ∀ s ∈ d.signals, P s) :
    (processed K m p delivery).Sourced P := by
  unfold processed
  split
  · exact sourced_end hp _
  · rename_i d
    have hd := hd d rfl
    simp only
    split
    · exact ⟨hp, (fun _ h => nomatch h), fun n hn => by
        rw [List.mem_singleton.mp hn]
        exact fun _ h => nomatch h⟩
    · have hrest := handleSignals_sourced (P := P) (p := { p with actor := { p.actor with
        historyEventCount := p.actor.historyEventCount + 1 } }) hp
        (fun s hs => hd s (List.mem_cons_of_mem _ hs))
      refine hrest.cons (fun s hs => ?_)
      rw [List.mem_singleton.mp hs]
      exact hd d.signal List.mem_cons_self

theorem Follows.signals {st st' : Stage} (h : Follows st st') : st'.signals = st.signals := by
  cases h with
  | handler hguard => cases hguard <;> rfl
  | _ => rfl

theorem Returns.signals {st : Stage} {q : Processing} (h : Returns st q) {d : Delivery}
    (hd : q.delivery = some d) : st.signals = d.signals := by
  have hnone : st.held? = none := by cases h <;> rfl
  have hmarked := h.marked
  have hsignals : st.signals = ((st.held?.or st.marked?).map Delivery.signals).getD [] := by
    cases h <;> rfl
  rw [hsignals, hnone, hmarked, hd]
  rfl

theorem processActionCommit_signals (commit : ActionCommit) (d : Delivery) {s : ActorSignal}
    (hs : s ∈ (processActionCommit commit (some d)).signals) : s ∈ d.signals := by
  unfold processActionCommit at hs
  split at hs
  · cases hs
  · split at hs
    · cases hs
    · exact hs

theorem resume_sourced (m : Moment) {p : Process σ} (hp : ∀ s ∈ p.actor.pendingSignals, P s)
    {st : Stage} (hst : ∀ s ∈ st.signals, P s) (reply : st.Reply) :
    (resume K m p st reply).Sourced P := by
  have hcont := resume_continued K m p st reply
  generalize resume K m p st reply = r at hcont
  have hroll : ∀ result, ∀ s ∈ (rollBack K p result).actor.pendingSignals, P s := by
    intro result
    rw [rollBack_actor]
    exact hp
  cases hcont with
  | ended => exact sourced_end hp _
  | awaits hfollows =>
    refine sourced_await hp ?_
    rw [hfollows.signals]
    exact hst
  | @started input projection _ =>
    exact replayPending_sourced (p := { p with actor := { p.actor with
      lastProjection := some projection } }) hp hst
  | pins _ => exact ⟨hp, hst, (fun _ h => nomatch h)⟩
  | pinned => exact replayPending_sourced hp hst
  | recorded =>
    exact ⟨hp, (fun s hs => hst s (processActionCommit_signals _ _ hs)), (fun _ h => nomatch h)⟩
  | caughtUp => exact ⟨hp, hst, (fun _ h => nomatch h)⟩
  | returned hreturns =>
    refine processed_sourced m hp (fun d hd => ?_)
    rw [← hreturns.signals hd]
    exact hst
  | acts _ => exact ⟨hp, hst, (fun _ h => nomatch h)⟩
  | unintended => exact ⟨hroll _, hst, (fun _ h => nomatch h)⟩
  | unrecorded => exact ⟨hroll _, hst, (fun _ h => nomatch h)⟩
  | @sweeps runId rest _ loaded =>
    obtain ⟨hactor, -, -, hnotes⟩ := sweepRun_status (K := K) p runId rest loaded
    refine ⟨by rw [hactor]; exact hp, fun s hs => ?_, fun n hn s hs => ?_⟩
    · unfold sweepRun at hs
      split at hs
      · cases rest <;> cases hs
      · cases hs
    · obtain ⟨_, rfl⟩ := hnotes n hn
      cases hs

theorem enter_sourced {p : Process σ} (hp : ∀ s ∈ p.actor.pendingSignals, P s) {entry : Entry}
    (hentry : ∀ s ∈ entry.signals, P s) {r : Resumed σ} (h : enter p entry = some r) :
    r.Sourced P := by
  cases entry with
  | run input =>
    unfold enter at h
    simp only at h
    split at h
    · cases h
    · cases h
      exact ⟨hp, hentry, (fun _ h => nomatch h)⟩
  | signal s =>
    unfold enter at h
    simp only at h
    split at h
    · cases h
      refine ⟨fun s' hs' => ?_, (fun _ h => nomatch h), (fun _ h => nomatch h)⟩
      rcases List.mem_append.mp hs' with hs' | hs'
      · exact hp s' hs'
      · exact hentry s' hs'
    · cases h
      exact handleSignals_sourced hp hentry
  | processActionCommit commit =>
    cases h
    refine ⟨hp, fun s hs => ?_, (fun _ h => nomatch h)⟩
    unfold processActionCommit at hs
    split at hs
    · cases hs
    · split at hs <;> cases hs
  | write commit =>
    cases h
    exact ⟨hp, (fun _ h => nomatch h), (fun _ h => nomatch h)⟩
  | reconcileOnce runIds =>
    cases h
    cases runIds with
    | nil => exact sourced_end hp _
    | cons runId rest => exact sourced_await hp (fun _ h => nomatch h)

theorem status_signals (next : Next) : next.status.signals = next.signals := by
  cases next <;> rfl

theorem Sourced.extend {w : World σ} (h : Sourced P w) {r : Resumed σ} (hr : r.Sourced P)
    {calls : List Status} (hcalls : ∀ x ∈ calls, x ∈ w.calls ∨ x = r.next.status) (i : Nat) :
    Sourced P { w with process := r.process, calls := calls, trace := w.trace ++ tagged i r.notes } where
  pending := hr.pending
  calls := by
    intro x hx s hs
    rcases hcalls x hx with hx | rfl
    · exact h.calls x hx s hs
    · rw [status_signals] at hs
      exact hr.next s hs
  notes := by
    intro o ho
    rcases List.mem_append.mp ho with ho | ho
    · exact h.notes o ho
    · exact hr.notes o.what (who_of_mem_tagged ho).2

theorem Sourced.step {w : World σ} (h : Sourced P w) {l : Label} (hl : l ≠ .restart)
    (hlabel : ∀ entry, l = .call entry → ∀ s ∈ entry.signals, P s) : Sourced P (w.step K l) := by
  have htaken := step_taken K w l
  generalize w.step K l = w' at htaken
  cases htaken with
  | idle => exact h
  | called henter =>
    refine h.extend (enter_sourced h.pending (hlabel _ rfl) henter) (fun x hx => ?_) _
    exact (List.mem_append.mp hx).imp id List.mem_singleton.mp
  | @served i b st reply services hcall hanswer =>
    have hst := h.calls _ (List.mem_of_getElem? hcall)
    refine ⟨h.pending, fun x hx => ?_, fun o ho => ?_⟩
    · rcases List.mem_or_eq_of_mem_set hx with hx | rfl
      · exact h.calls x hx
      · exact hst
    · rcases List.mem_append.mp ho with ho | ho
      · exact h.notes o ho
      · rw [List.mem_singleton.mp (who_of_mem_tagged ho).2]
        exact hst
  | resumed hcall =>
    refine h.extend (resume_sourced _ h.pending (h.calls _ (List.mem_of_getElem? hcall)) _) ?_ _
    exact fun x hx => List.mem_or_eq_of_mem_set hx
  | startedTurn => exact ⟨h.pending, h.calls, h.notes⟩
  | movedTurn => exact ⟨h.pending, h.calls, h.notes⟩
  | restarted _ => exact absurd rfl hl

/-- **Every signal of the world was delivered to it.** -/
theorem sourced_run (K : Kernel σ) (journal : Journal) (store : σ) {labels : List Label}
    (hinstance : .restart ∉ labels) :
    Sourced (· ∈ delivered labels) (run (World.step K) (World.fresh journal store) labels) := by
  have hfresh : Sourced (· ∈ delivered labels) (World.fresh journal store) :=
    ⟨(fun _ h => nomatch h), (fun _ h => nomatch h), (fun _ h => nomatch h)⟩
  refine run_invariant_of (A := fun l => l ∈ labels) ?_ hfresh labels (fun _ hl => hl)
  intro w l hl hw
  refine hw.step (fun hr => hinstance (hr ▸ hl)) (fun entry he s hs => ?_)
  exact List.mem_flatMap.mpr ⟨l, hl, by rw [he]; exact hs⟩

end

/-! ### One event for each pair -/

/-- The signal is of a type and cause. -/
def ActorSignal.isFor (s : ActorSignal) (signalType cause : String) : Bool :=
  decide (s.signalType = signalType) && decide (s.causedBy = some cause)

/-- The commits in the log that record a signal of a type and cause. -/
def signalCommits (trace : List (Tagged Nat Note)) (signalType cause : String) : List ActionCommit :=
  trace.filterMap (fun o =>
    if o.what.recorded?.any (fun s => s.isFor signalType cause) then o.what.appended? else none)

theorem appended?_of_recorded? {n : Note} {s : ActorSignal} (h : n.recorded? = some s) :
    ∃ commit, n.appended? = some commit := by
  unfold Note.recorded? at h
  split at h
  · exact ⟨_, rfl⟩
  · cases h

theorem signalCommits_sublist (trace : List (Tagged Nat Note)) (signalType cause : String) :
    (signalCommits trace signalType cause).Sublist (appendedCommits trace) := by
  induction trace with
  | nil => exact List.Sublist.refl _
  | cons o rest ih =>
    have ih : (signalCommits rest signalType cause).Sublist (appendedCommits rest) := ih
    simp only [signalCommits, appendedCommits, List.filterMap_cons] at ih ⊢
    cases happended : o.what.appended? with
    | none => simpa using ih
    | some commit =>
      by_cases hfor : o.what.recorded?.any (fun s => s.isFor signalType cause) = true
      · rw [if_pos hfor]
        exact ih.cons_cons commit
      · rw [if_neg hfor]
        exact ih.cons commit

theorem length_signalCommits (trace : List (Tagged Nat Note)) (signalType cause : String) :
    (signalCommits trace signalType cause).length =
      ((recordedSignals trace).filter (fun s => s.isFor signalType cause)).length := by
  induction trace with
  | nil => rfl
  | cons o rest ih =>
    simp only [signalCommits, recordedSignals, List.filterMap_cons] at ih ⊢
    cases hrec : o.what.recorded? with
    | none =>
      simpa [hrec] using ih
    | some s =>
      obtain ⟨commit, hcommit⟩ := appended?_of_recorded? hrec
      cases hfor : s.isFor signalType cause with
      | false => simpa [hrec, hfor, List.filter_cons] using ih
      | true => simpa [hrec, hfor, hcommit, List.filter_cons] using ih

theorem token?_of_isFor {s : ActorSignal} {signalType cause : String} (hcause : cause ≠ "")
    (h : s.isFor signalType cause = true) : s.token? = some (signalType ++ ":" ++ cause) := by
  simp only [ActorSignal.isFor, Bool.and_eq_true, decide_eq_true_eq] at h
  simp [ActorSignal.token?, ActorSignal.cause?, h.1, h.2, hcause]

/-- The signals have a token of their own for each type and cause. -/
def TokensApart (signals : List ActorSignal) : Prop :=
  ∀ s ∈ signals, ∀ s' ∈ signals, s.token? ≠ none → s.token? = s'.token? →
    s.signalType = s'.signalType ∧ s.causedBy = s'.causedBy

section
variable {σ : Type}

/-- A delivery of the signal has returned. -/
def Returned (w : World σ) (s : ActorSignal) : Prop :=
  ∃ i, ⟨i, .handled s⟩ ∈ w.trace ∨ ⟨i, .suppressed s⟩ ∈ w.trace

/-- No type and cause is recorded twice. -/
theorem Remembered.signalCommits_le {w : World σ} (h : Remembered w) (signalType : String) {cause : String}
    (hcause : cause ≠ "") : (signalCommits w.trace signalType cause).length ≤ 1 := by
  have hle : ((recordedSignals w.trace).filter (fun s => s.isFor signalType cause)).length ≤
      (recordedUnder w.trace (signalType ++ ":" ++ cause)).length := by
    refine List.Sublist.length_le (List.monotone_filter_right _ (fun s hs => ?_))
    exact decide_eq_true (token?_of_isFor hcause hs)
  rw [length_signalCommits]
  refine Nat.le_trans hle ?_
  by_cases hseen : signalType ++ ":" ++ cause ∈ w.process.actor.seenSignalTokens
  · exact Nat.le_of_eq (h.seen _ hseen).1
  · cases h.unseen _ hseen with
    | absent hnone _ =>
      rw [hnone]
      exact Nat.zero_le 1
    | recorded _ _ _ hone _ _ _ => exact Nat.le_of_eq hone

/-- **One event for each signal.** Whatever the services do and in whatever order the calls
of one instance go on: if no two deliveries under one token are ever between the look-up
and the mark, and the signals delivered share no token across types and causes, then the
log has at most one event for each type and cause, and exactly one once a delivery of it
has returned, whether it was recorded or suppressed. -/
theorem signals_recorded_exactly_once (K : Kernel σ) (journal : Journal) (store : σ)
    (labels : List Label) (hinstance : .restart ∉ labels) (hapart : TokensApart (delivered labels))
    (hsolo : Along (World.step K) (fun w _ => Solo w) (World.fresh journal store) labels) :
    let w := run (World.step K) (World.fresh journal store) labels
    w.services.journal = run Journal.append journal (appendedCommits w.trace) ∧
    ∀ signalType cause, cause ≠ "" →
      (signalCommits w.trace signalType cause).Sublist (appendedCommits w.trace) ∧
      (signalCommits w.trace signalType cause).length ≤ 1 ∧
      ∀ s, Returned w s → s.isFor signalType cause = true →
        (signalCommits w.trace signalType cause).length = 1 := by
  intro w
  have hsourced := sourced_run K journal store hinstance
  have hremembered : Remembered w :=
    run_invariant_along (fun w l hc hw => hw.step hc.1 hc.2) (remembered_fresh journal store) labels
      (hsolo.and_of_mem (D := fun l => l ≠ .restart) (fun l hl hr => hinstance (hr ▸ hl)))
  refine ⟨journal_of_trace K journal store labels, fun signalType cause hcause => ?_⟩
  have hle := hremembered.signalCommits_le signalType hcause
  refine ⟨signalCommits_sublist _ _ _, hle, ?_⟩
  intro s hreturned hfor
  rw [length_signalCommits] at hle ⊢
  have htoken := token?_of_isFor hcause hfor
  obtain ⟨i, hdone⟩ := hreturned
  have hseen := hremembered.done i s _ hdone htoken
  have hs : s ∈ delivered labels := by
    rcases hdone with hdone | hdone <;>
      exact hsourced.notes _ hdone s (List.mem_singleton.mpr rfl)
  -- The one recorded under the token is of the same type and cause.
  obtain ⟨s', hs'⟩ := List.length_eq_one_iff.mp (hremembered.seen _ hseen).1
  have hmem : s' ∈ recordedUnder w.trace (signalType ++ ":" ++ cause) := by
    rw [hs']
    exact List.mem_singleton.mpr rfl
  obtain ⟨hrec, htoken'⟩ := List.mem_filter.mp hmem
  obtain ⟨o, ho, hrec'⟩ := List.mem_filterMap.mp hrec
  have hs'delivered : s' ∈ delivered labels := by
    refine hsourced.notes o ho s' ?_
    obtain ⟨j, n⟩ := o
    simp only at hrec'
    unfold Note.recorded? at hrec'
    split at hrec'
    · cases hrec'
      exact List.mem_cons_self
    · cases hrec'
  have hsame := hapart s hs s' hs'delivered (by rw [htoken]; exact Option.some_ne_none _)
    (htoken.trans (of_decide_eq_true htoken').symm)
  have hfor' : s'.isFor signalType cause = true := by
    unfold ActorSignal.isFor
    rw [← hsame.1, ← hsame.2]
    exact hfor
  have hpos : 0 < ((recordedSignals w.trace).filter (fun s => s.isFor signalType cause)).length :=
    List.length_pos_of_mem (List.mem_filter.mpr ⟨hrec, hfor'⟩)
  omega

/-- Nobody is in anybody's way. -/
theorem solo_of_length_le_one {w : World σ} (h : w.calls.length ≤ 1) : Solo w := by
  intro i j x y d d' token hi hj
  obtain ⟨hi, -⟩ := List.getElem?_eq_some_iff.mp hi
  obtain ⟨hj, -⟩ := List.getElem?_eq_some_iff.mp hj
  omega

end

/-! ### Samples -/

namespace Sample

def signal : ActorSignal := { signalType := "go", causedBy := some "call" }

/-- An instance that replays one signal when it starts. -/
def replayed : List Label :=
  .call (.run { runId := "run", pendingSignals := some [signal] }) :: awaits 0 7

/-- Two deliveries of one signal, the second made before the first is recorded. -/
def overlapping : List Label :=
  .call (.run { runId := "run" }) :: awaits 0 1 ++
    [.call (.signal signal), .call (.signal signal)] ++ awaits 1 2 ++ awaits 2 2

end Sample

/-- A signal that is replayed is recorded once. -/
theorem replayed_signal_recorded :
    Returned (run (World.step Sample.kernel) Sample.world Sample.replayed) Sample.signal ∧
      (signalCommits (run (World.step Sample.kernel) Sample.world Sample.replayed).trace "go"
        "call").length = 1 := by
  have hsolo : Along (World.step Sample.kernel) (fun w _ => w.calls.length ≤ 1) Sample.world
      Sample.replayed := by decide
  have hapart : TokensApart (delivered Sample.replayed) := by
    intro s hs s' hs' _ _
    have hone : delivered Sample.replayed = [Sample.signal] := rfl
    rw [hone, List.mem_singleton] at hs hs'
    rw [hs, hs']
    exact ⟨rfl, rfl⟩
  have hreturned : Returned (run (World.step Sample.kernel) Sample.world Sample.replayed)
      Sample.signal := ⟨0, .inl (List.mem_of_getElem? (i := 7) rfl)⟩
  have hinstance : .restart ∉ Sample.replayed := by simp [Sample.replayed, Sample.awaits]
  obtain ⟨-, honce⟩ := signals_recorded_exactly_once Sample.kernel Journal.empty Dict.empty
    Sample.replayed hinstance hapart (hsolo.mono (fun w _ h => solo_of_length_le_one h))
  exact ⟨hreturned, (honce "go" "call" (by decide)).2.2 Sample.signal hreturned rfl⟩

/-- Both of two overlapping deliveries are recorded. -/
theorem overlapping_deliveries_recorded_twice :
    ¬ (signalCommits (run (World.step Sample.kernel) Sample.world Sample.overlapping).trace "go"
      "call").length ≤ 1 := by
  decide

end AgentKernel.Workflow
