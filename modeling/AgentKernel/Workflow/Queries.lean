import AgentKernel.Workflow.Deliveries
import AgentKernel.Workflow.Standing

/-! Whether a query is fresh once a call has ended.

The instance handles one call of `signal` or `process_action_commit` at a time; writers,
sweeps and turns go on beside it. When the call has ended, the query answers the fold of
the log at the call's own last append exactly when that append was of a signal's event,
came right after the events the signal had read, and was caught up with
(`query_fresh_iff`). -/
namespace AgentKernel.Workflow
open Lib Dedupe Turns Events Projection Reconcile

section
variable {σ : Type} {journal : Journal} {i : Nat}

/-! ### One call at a time -/

/-- Writers and sweeps are no coroutines of the instance. -/
def Stage.outside : Stage → Bool
  | .writing _ | .sweeping _ _ => true
  | _ => false

/-- Nothing is left of the call in the instance. -/
def Status.outside : Status → Bool
  | .awaiting st | .answered st _ => st.outside
  | .ended _ => true

/-- The calls the instance handles one at a time. -/
def Entry.submits : Entry → Bool
  | .signal _ | .processActionCommit _ => true
  | _ => false

/-- No call of the instance is made. -/
def Label.bystands : Label → Bool
  | .call (.write _) | .call (.reconcileOnce _) | .serve _ _ | .resume _ _ | .runTurn _ | .turn _ => true
  | _ => false

/-- A world with one call of the instance at most. -/
structure Watched (journal : Journal) (i : Nat) (w : World σ) : Prop where
  alone : ∀ k x, w.calls[k]? = some x → k ≠ i → x.outside = true
  current : Current w
  log : w.services.journal = logAfter journal w.trace
  stands : ∃ x, w.calls[i]? = some x ∧ Standing journal i w x

section
variable {K : Kernel σ} {w w' : World σ}

theorem sweepRun_outside (p : Process σ) (runId : String) (rest : List String)
    (loaded : Except PyError (List RuntimeEvent)) :
    (sweepRun K p runId rest loaded).next.status.outside = true := by
  unfold sweepRun
  split
  · cases rest <;> rfl
  · rfl

theorem outside_resumed (m : Moment) (p : Process σ) {st : Stage} (reply : st.Reply)
    (h : st.outside = true) :
    (resume K m p st reply).process.actor = p.actor ∧
      (resume K m p st reply).next.status.outside = true := by
  have hcont := resume_continued K m p st reply
  generalize resume K m p st reply = r at hcont
  cases st with
  | writing commit =>
    cases hcont with
    | ended => exact ⟨rfl, rfl⟩
    | awaits hfollows => cases hfollows with
      | handler hguarded => cases hguarded
    | returned hreturns => cases hreturns
  | sweeping runId rest =>
    cases hcont with
    | ended => exact ⟨rfl, rfl⟩
    | awaits hfollows => cases hfollows with
      | handler hguarded => cases hguarded
    | returned hreturns => cases hreturns
    | sweeps _ => exact ⟨sweepRun_actor p runId rest _, sweepRun_outside p runId rest _⟩
  | _ => cases h

/-- A writer or a sweep asks nothing of the projection service. -/
theorem outside_answer {sv sv' : Services} {st : Stage} {reply : st.Reply} {b : Behaviour}
    {turns : List Turn} (h : st.outside = true)
    (hanswer : sv.answer b turns st.request = some (reply, sv')) : sv'.projections = sv.projections := by
  cases st with
  | writing commit => exact answer_append_projections hanswer
  | sweeping runId rest =>
    rcases answer_cases hanswer with hp | ⟨-, rfl⟩
    · cases hp
      rfl
    · rfl
  | _ => cases h

/-- The status of another call is replaced. -/
theorem alone_set {i k : Nat} {y : Status} (halone : ∀ k x, w.calls[k]? = some x → k ≠ i → x.outside = true)
    (hy : k ≠ i → y.outside = true) :
    ∀ k' x, (w.calls.set k y)[k']? = some x → k' ≠ i → x.outside = true := by
  intro k' x hx hk'
  by_cases hkk : k = k'
  · subst hkk
    obtain ⟨hlt, -⟩ := List.getElem?_eq_some_iff.mp hx
    rw [List.length_set] at hlt
    rw [List.getElem?_set_self hlt] at hx
    cases hx
    exact hy hk'
  · rw [List.getElem?_set_ne hkk] at hx
    exact halone k' x hx hk'

/-- A call of somebody else is made. -/
theorem bystander_enters {p : Process σ} {entry : Entry} {r : Resumed σ}
    (hl : (Label.call entry).bystands = true) (h : enter p entry = some r) :
    r.process = p ∧ r.next.status.outside = true := by
  cases entry with
  | write commit =>
    cases h
    exact ⟨rfl, rfl⟩
  | reconcileOnce runIds =>
    cases h
    cases runIds <;> exact ⟨rfl, rfl⟩
  | _ => cases hl

theorem Watched.step (h : Watched journal i w) {l : Label} (hl : l.bystands = true) :
    Watched journal i (w.step K l) := by
  have hcurrent := h.current.step (K := K) l
  have hlog : (w.step K l).services.journal = logAfter journal (w.step K l).trace := by
    obtain ⟨new, htrace, hjournal⟩ := step_journal K w l
    rw [hjournal, htrace, logAfter_append, ← h.log]
  have htaken := step_taken K w l
  generalize w.step K l = w' at htaken hcurrent hlog
  obtain ⟨x, hx, hstands⟩ := h.stands
  obtain ⟨hlt, -⟩ := List.getElem?_eq_some_iff.mp hx
  cases htaken with
  | idle => exact h
  | @called entry r henter =>
    obtain ⟨hprocess, hout⟩ := bystander_enters hl henter
    refine ⟨fun k y hy hk => ?_, hcurrent, hlog, x, ?_, ?_⟩
    · by_cases hkl : k < w.calls.length
      · rw [show (w.launch r).calls = w.calls ++ [r.next.status] from rfl,
          List.getElem?_append_left hkl] at hy
        exact h.alone k y hy hk
      · rw [show (w.launch r).calls = w.calls ++ [r.next.status] from rfl,
          List.getElem?_append_right (Nat.le_of_not_lt hkl)] at hy
        rw [List.mem_singleton.mp (List.mem_of_getElem? hy)]
        exact hout
    · show (w.calls ++ [r.next.status])[i]? = some x
      rw [List.getElem?_append_left hlt]
      exact hx
    · refine hstands.elsewhere (congrArg Actor.view (congrArg Process.actor hprocess)) (fun _ => rfl)
        rfl (fun note hnote => ?_)
      exact Nat.ne_of_lt hlt (who_of_mem_tagged hnote).1
  | @served k b st reply services hcall hanswer =>
    by_cases hik : k = i
    · subst hik
      rw [hx] at hcall
      cases hcall
      refine ⟨alone_set h.alone (fun hne => absurd rfl hne), hcurrent, hlog, _,
        List.getElem?_set_self hlt, ?_⟩
      exact hstands.served h.current h.log hanswer rfl rfl rfl
    · have hout : st.outside = true := h.alone k _ hcall hik
      refine ⟨alone_set h.alone (fun _ => hout), hcurrent, hlog, x, ?_, ?_⟩
      · show (w.calls.set k _)[i]? = some x
        rw [List.getElem?_set_ne hik]
        exact hx
      · refine hstands.elsewhere rfl (fun runId => ?_) rfl (fun note hnote => ?_)
        · show services.cached runId = w.services.cached runId
          rw [Services.cached, Services.cached, outside_answer hout hanswer]
        · exact hik (who_of_mem_tagged hnote).1.symm
  | @resumed k m st reply hcall =>
    by_cases hik : k = i
    · subst hik
      rw [hx] at hcall
      cases hcall
      refine ⟨alone_set h.alone (fun hne => absurd rfl hne), hcurrent, hlog, _,
        List.getElem?_set_self hlt, ?_⟩
      exact hstands.resumed rfl rfl rfl
    · have hout : st.outside = true := h.alone k _ hcall hik
      obtain ⟨hactor, hstatus⟩ := outside_resumed (K := K) m w.process reply hout
      refine ⟨alone_set h.alone (fun _ => hstatus), hcurrent, hlog, x, ?_, ?_⟩
      · show (w.calls.set k _)[i]? = some x
        rw [List.getElem?_set_ne hik]
        exact hx
      · refine hstands.elsewhere (congrArg Actor.view hactor) (fun _ => rfl) rfl (fun note hnote => ?_)
        exact hik (who_of_mem_tagged hnote).1.symm
  | startedTurn =>
    exact ⟨h.alone, hcurrent, hlog, x, hx, hstands.elsewhere rfl (fun _ => rfl)
      (List.append_nil _).symm (fun _ hnote => absurd hnote List.not_mem_nil)⟩
  | movedTurn =>
    exact ⟨h.alone, hcurrent, hlog, x, hx, hstands.elsewhere rfl (fun _ => rfl)
      (List.append_nil _).symm (fun _ hnote => absurd hnote List.not_mem_nil)⟩
  | restarted hinput => cases hl

/-- A call as it is made. -/
theorem enter_standing {p : Process σ} {entry : Entry} {r : Resumed σ} (hentry : entry.submits = true)
    (h : enter p entry = some r) (hprocess : w'.process = r.process)
    (hunread : Unread i w'.trace) (hunappended : Unappended i w'.trace) :
    Standing journal i w' r.next.status := by
  have hended : ∀ r, Standing journal i w' (.ended r) := fun _ => .ended (hunappended.verdict _)
  cases entry with
  | processActionCommit commit =>
    cases h
    show Standing journal i w' (processActionCommit commit none).status
    unfold processActionCommit
    split
    · exact hended _
    · split
      · exact hended _
      · exact .waiting rfl hunread hunappended
  | signal s =>
    unfold enter at h
    simp only at h
    split at h
    · cases h
      exact hended _
    · rename_i runId hrun
      cases h
      unfold handleSignals at hprocess ⊢
      simp only [hrun] at hprocess ⊢
      split at hprocess
      · rename_i hpeer
        rw [if_pos hpeer]
        exact hended _
      · rename_i hpeer
        rw [if_neg hpeer]
        split at hprocess
        · rename_i hseen
          rw [if_pos hseen]
          exact hended _
        · rename_i hseen
          rw [if_neg hseen]
          refine .asked ⟨?_, rfl⟩ hunappended
          rw [hprocess]
          show p.actor.runId? ≠ none
          rw [hrun]
          exact Option.some_ne_none _
  | _ => cases hentry

theorem enter_submitted (p : Process σ) {entry : Entry} (hentry : entry.submits = true) :
    ∃ r, enter p entry = some r := by
  cases entry with
  | processActionCommit commit => exact ⟨_, rfl⟩
  | signal s =>
    unfold enter
    simp only
    split <;> exact ⟨_, rfl⟩
  | _ => cases hentry

theorem watched_entered (hcurrent : Current w) (hlog : w.services.journal = logAfter journal w.trace)
    (hunheard : Unheard w) (halone : ∀ x ∈ w.calls, x.outside = true) {entry : Entry}
    (hentry : entry.submits = true) :
    Watched journal w.calls.length (w.step K (.call entry)) := by
  obtain ⟨r, henter⟩ := enter_submitted w.process hentry
  have hstep : w.step K (.call entry) = w.launch r := step_entered henter
  have hnotes := enter_notes henter
  have hunheard' : ∀ note, ⟨w.calls.length, note⟩ ∉ w.trace := by
    intro note hnote
    have hmem := mem_historyOf.mpr hnote
    rw [hunheard _ (Nat.le_refl _)] at hmem
    cases hmem
  have hcurrent' := hcurrent.step (K := K) (.call entry)
  rw [hstep] at hcurrent' ⊢
  refine ⟨fun k x hx hk => ?_, hcurrent', ?_, r.next.status, List.getElem?_concat_length, ?_⟩
  · rw [show (w.launch r).calls = w.calls ++ [r.next.status] from rfl] at hx
    have hlt : k < w.calls.length := by
      obtain ⟨hlt, -⟩ := List.getElem?_eq_some_iff.mp hx
      rw [List.length_append, List.length_singleton] at hlt
      omega
    rw [List.getElem?_append_left hlt] at hx
    exact halone x (List.mem_of_getElem? hx)
  · show w.services.journal = logAfter journal (w.trace ++ tagged w.calls.length r.notes)
    rw [logAfter_append, appendedCommits_tagged (fun n hn => appended?_ofCall (hnotes n hn))]
    exact hlog
  · refine enter_standing hentry henter rfl ?_ ?_
    · exact Unread.append (fun _ _ => hunheard' _) (unread_ofCall hnotes)
    · exact (unappended_of_not_mem hunheard').append (unappended_ofCall hnotes)

/-- **When a query is fresh.** For every call of `signal` or `process_action_commit` made
while no other call of the instance was under way, whatever writers, sweeps and turns did
meanwhile and whatever the ports answered: once the call has ended, `query` returns the
fold of all events but the diagnostics that its run had when the call's own last append
completed, and the run is terminal exactly if that fold is, if and only if the append was
caught up with. -/
theorem query_fresh_iff (K : Kernel σ) (journal : Journal) (store : σ) (before after : List Label)
    (entry : Entry) (hentry : entry.submits = true) (hafter : ∀ l ∈ after, l.bystands = true)
    (halone : ∀ x ∈ (run (World.step K) (World.fresh journal store) before).calls, x.outside = true) :
    let w := run (World.step K) (World.fresh journal store) before
    let w' := run (World.step K) w (.call entry :: after)
    ∀ r, w'.calls[w.calls.length]? = some (.ended r) →
      ∀ pre post commit, LastAppend w.calls.length w'.trace pre post commit →
        let fold := foldOf ((logAfter journal pre).append commit) commit.runId
        (w'.process.actor.query = .ok fold ∧
          w'.process.actor.isRunTerminal = RunLifecycleState.terminal fold.lifecycleState) ↔
        Refreshes journal w.calls.length pre post commit := by
  intro w w' r hended pre post commit hlast fold
  have hwatched : Watched journal w.calls.length w' :=
    run_invariant_of (I := Watched journal w.calls.length)
      (A := fun l => l.bystands = true) (fun _ _ hl h => h.step (K := K) hl)
      (watched_entered (current_run K journal store before) (journal_of_trace K journal store before)
        (unheard_run K journal store before) halone hentry) after hafter
  obtain ⟨x, hx, hstands⟩ := hwatched.stands
  cases hended.symm.trans hx
  cases hstands with
  | ended hverdict =>
    rw [query_eq_ok_iff, ← hverdict pre post commit hlast]
    refine and_iff_left_of_imp (fun hshown => ?_)
    rw [Actor.isRunTerminal, lastProjection_of_shown hshown]

end

end

/-! ### Samples -/

namespace Sample

/-- A run is started. -/
def started : List Label := .call (.run { runId := "run" }) :: awaits 0 1

/-- Then the signal is delivered, and every port answers. -/
def delivering : World InMemoryDedupeStore :=
  run (World.step kernel) (run (World.step kernel) world started) (.call (.signal signal) :: awaits 1 6)

/-- A run is started, and a commit appended to it. -/
def prepared : List Label := started ++ .call (.write actionCommit) :: awaits 1 1

/-- Then the commit is processed: its turn asks for recovery, and recovery aborts the run. -/
def aborting : World InMemoryDedupeStore :=
  run (World.step kernel) (run (World.step kernel) world prepared)
    (.call (.processActionCommit actionCommit) :: (awaits 2 4 ++
      List.replicate 8 (.turn ⟨0, ports unacknowledged⟩) ++ awaits 2 6))

/-- The sample signal's commit, as first of its run. -/
def firstSignal : ActionCommit := signalCommit "run" signal 1 1 ""

end Sample

/-- The commit a call appended with one entry of the trace. -/
def appendedBy (i : Nat) (o : Tagged Nat Note) : Option ActionCommit :=
  if o.who = i then o.what.appended? else none

/-- A trace split at one of its entries. -/
theorem lastAppend_of_index {i k : Nat} {entries : List (Tagged Nat Note)} {commit : ActionCommit}
    (hcommit : entries[k]?.bind (appendedBy i) = some commit)
    (hlast : (entries.drop (k + 1)).all (fun o => o.what.appended?.isNone) = true) :
    LastAppend i entries (entries.take k) (entries.drop (k + 1)) commit where
  split := by
    obtain ⟨o, hentry, happended⟩ := Option.bind_eq_some_iff.mp hcommit
    obtain ⟨hlt, hget⟩ := List.getElem?_eq_some_iff.mp hentry
    unfold appendedBy at happended
    split at happended
    · rename_i hwho
      refine ⟨o.what, ?_, happended⟩
      subst hwho
      show entries = entries.take k ++ o :: entries.drop (k + 1)
      rw [← hget, ← List.drop_eq_getElem_cons hlt, List.take_append_drop]
    · cases happended
  last := fun note hmem => Option.isNone_iff_eq_none.mp (List.all_eq_true.mp hlast _ hmem)

/-- A signal in a run nobody else writes to is shown when its call has ended. -/
theorem delivered_signal_shown :
    LastAppend 1 Sample.delivering.trace (Sample.delivering.trace.take 2)
        (Sample.delivering.trace.drop 3) Sample.firstSignal ∧
      Sample.delivering.process.actor.query = .ok (foldOf
        ((logAfter Journal.empty (Sample.delivering.trace.take 2)).append Sample.firstSignal) "run") := by
  have hlast : LastAppend 1 Sample.delivering.trace (Sample.delivering.trace.take 2)
      (Sample.delivering.trace.drop 3) Sample.firstSignal := lastAppend_of_index rfl rfl
  have hended : Sample.delivering.calls[1]? = some (.ended (.ok ())) := rfl
  have hrefreshes : Refreshes Journal.empty 1 (Sample.delivering.trace.take 2)
      (Sample.delivering.trace.drop 3) Sample.firstSignal := by
    refine ⟨⟨Sample.delivering.trace.take 1, ⟨"run", Sample.signal, []⟩, defaultProjection "run", [],
      rfl, (fun _ h => nomatch h), rfl⟩, (fun _ h => nomatch h), ?_⟩
    exact ⟨⟨Sample.firstSignal, 1, some ⟨"run", Sample.signal, []⟩⟩, _, List.mem_of_getElem? (i := 0) rfl⟩
  have hafter : ∀ l ∈ Sample.awaits 1 6, l.bystands = true := by simp [Sample.awaits, Label.bystands]
  have halone : ∀ x ∈ (run (World.step Sample.kernel) Sample.world Sample.started).calls,
      x.outside = true := by decide
  have hiff := query_fresh_iff Sample.kernel Journal.empty Dict.empty Sample.started (Sample.awaits 1 6)
    (.signal Sample.signal) rfl hafter halone (.ok ()) hended _ _ _ hlast
  exact ⟨hlast, (hiff.mpr hrefreshes).1⟩

/-- The log says that the run was aborted, the call has ended, and the run is not terminal. -/
theorem aborted_run_not_terminal :
    Sample.aborting.calls[2]? = some (.ended (.ok ())) ∧
      ¬ ∀ pre post commit, LastAppend 2 Sample.aborting.trace pre post commit →
        Sample.aborting.process.actor.query =
            .ok (foldOf ((logAfter Journal.empty pre).append commit) commit.runId) ∧
          Sample.aborting.process.actor.isRunTerminal = RunLifecycleState.terminal
            (foldOf ((logAfter Journal.empty pre).append commit) commit.runId).lifecycleState := by
  refine ⟨Status.ended_of_ended? (by decide +kernel), fun h => ?_⟩
  -- the commit recovery appended, which the actor has not taken in
  have hmissed : (Sample.aborting.trace[11]?.bind (appendedBy 2)).any (fun commit =>
      RunLifecycleState.terminal (foldOf ((logAfter Journal.empty (Sample.aborting.trace.take 11)).append
        commit) commit.runId).lifecycleState && !Sample.aborting.process.actor.isRunTerminal) = true := by
    decide +kernel
  obtain ⟨commit, hcommit, hdiffers⟩ := (Option.any_eq_true _ _).mp hmissed
  have hlast : LastAppend 2 Sample.aborting.trace (Sample.aborting.trace.take 11)
      (Sample.aborting.trace.drop 12) commit := lastAppend_of_index hcommit (by decide +kernel)
  have hterminal := (h _ _ _ hlast).2
  rw [← hterminal, Bool.and_not_self] at hdiffers
  cases hdiffers

end AgentKernel.Workflow
