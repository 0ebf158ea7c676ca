import AgentKernel.Workflow.Freshness

/-! Where a call of the instance stands with what it appends and what it shows.

A call of `signal` or `process_action_commit` refreshes what the instance shows by one
`catch_up`, to the offset its commit was given before the log had assigned one; what it
appends afterwards, a turn's outcome or a recovery event, is not shown. `Standing` says
for every stage what the call has appended so far and whether the instance shows it
(`Verdict`), and that the answers and the continuations of the call keep it
(`Standing.served`, `Standing.resumed`), as does everything others do
(`Standing.elsewhere`). -/
namespace AgentKernel.Workflow
open Lib Dedupe Turns Events Projection Reconcile

/-! ### The last append of a call -/

/-- The log after what was appended to it in a trace. -/
def logAfter (journal : Journal) (trace : List (Tagged Nat Note)) : Journal :=
  run Journal.append journal (appendedCommits trace)

theorem logAfter_append (journal : Journal) (a b : List (Tagged Nat Note)) :
    logAfter journal (a ++ b) = run Journal.append (logAfter journal a) (appendedCommits b) := by
  rw [logAfter, appendedCommits_append, run_append]
  rfl

/-- Here in the trace the call appended its last commit. -/
structure LastAppend (i : Nat) (trace pre post : List (Tagged Nat Note)) (commit : ActionCommit) :
    Prop where
  split : ∃ note : Note, trace = pre ++ ⟨i, note⟩ :: post ∧ note.appended? = some commit
  last : ∀ note : Note, ⟨i, note⟩ ∈ post → note.appended? = none

/-- The last append was caught up with. -/
structure Refreshes (journal : Journal) (i : Nat) (pre post : List (Tagged Nat Note))
    (commit : ActionCommit) : Prop where
  /-- It was made for a signal, and nothing was appended to the run after the signal had
  read it. -/
  read : ∃ before d p since, pre = before ++ ⟨i, .served (.signalled d) (.ok p)⟩ :: since ∧
    (∀ note, ⟨i, note⟩ ∉ since) ∧
    (logAfter journal before).eventsOf commit.runId = (logAfter journal pre).eventsOf commit.runId
  /-- The run did not end in a diagnostic. -/
  last : ∀ e, ((logAfter journal pre).eventsOf commit.runId).getLast? = some e →
    e.eventAuthority ≠ .derivedDiagnostic
  /-- The `catch_up` after it did not fail. -/
  caughtUp : ∃ q p, ⟨i, .served (.catchingUp q) (.ok p)⟩ ∈ post

/-- An answer is the fold of the log at the last append exactly when that was caught up
with. -/
def Verdict (journal : Journal) (i : Nat) (trace : List (Tagged Nat Note))
    (answer : Option RunProjection) : Prop :=
  ∀ pre post commit, LastAppend i trace pre post commit →
    (answer = some (foldOf ((logAfter journal pre).append commit) commit.runId) ↔
      Refreshes journal i pre post commit)

section
variable {σ : Type} {journal : Journal} {i : Nat} {trace pre post new : List (Tagged Nat Note)}
  {commit : ActionCommit} {answer : Option RunProjection}

/-- The call has appended nothing. -/
def Unappended (i : Nat) (trace : List (Tagged Nat Note)) : Prop :=
  ∀ note, ⟨i, note⟩ ∈ trace → note.appended? = none

theorem Unappended.verdict (h : Unappended i trace) (answer : Option RunProjection) :
    Verdict journal i trace answer := by
  intro pre post commit hlast
  obtain ⟨note, hsplit, hcommit⟩ := hlast.split
  have hnone := h note (hsplit ▸ List.mem_append_right _ List.mem_cons_self)
  rw [hnone] at hcommit
  cases hcommit

theorem Unappended.append (h : Unappended i trace) (hnew : Unappended i new) :
    Unappended i (trace ++ new) := by
  intro note hnote
  rcases List.mem_append.mp hnote with hold | hn
  · exact h note hold
  · exact hnew note hn

theorem LastAppend.unique {pre' post' : List (Tagged Nat Note)} {commit' : ActionCommit}
    (h : LastAppend i trace pre post commit) (h' : LastAppend i trace pre' post' commit') :
    pre = pre' ∧ post = post' ∧ commit = commit' := by
  obtain ⟨note, hsplit, hcommit⟩ := h.split
  obtain ⟨note', hsplit', hcommit'⟩ := h'.split
  have hnone : ∀ {rest : List (Tagged Nat Note)}, (∀ n : Note, ⟨i, n⟩ ∈ rest → n.appended? = none) →
      ∀ b ∈ rest, ¬ (b.who = i ∧ b.what.appended? ≠ none) := by
    intro rest hrest b hb hkind
    obtain ⟨rfl, hsome⟩ := hkind
    exact hsome (hrest b.what hb)
  obtain ⟨hpre, hnote, hpost⟩ := eq_of_last
    (P := fun b : Tagged Nat Note => b.who = i ∧ b.what.appended? ≠ none)
    (hsplit.symm.trans hsplit') ⟨rfl, by simp [hcommit]⟩ ⟨rfl, by simp [hcommit']⟩ (hnone h.last)
    (hnone h'.last)
  cases hnote
  exact ⟨hpre, hpost, Option.some.inj (hcommit.symm.trans hcommit')⟩

/-- A last append in a longer trace is the last one of the trace before. -/
theorem LastAppend.shorten (h : LastAppend i (trace ++ new) pre post commit) (hnew : Unappended i new) :
    ∃ rest, post = rest ++ new ∧ LastAppend i trace pre rest commit := by
  obtain ⟨note, hsplit, hcommit⟩ := h.split
  have hout : ∀ rest, new ≠ rest ++ ⟨i, note⟩ :: post := by
    intro rest hin
    have hnone := hnew note (hin ▸ List.mem_append_right _ List.mem_cons_self)
    rw [hnone] at hcommit
    cases hcommit
  rcases List.append_eq_append_iff.mp hsplit with ⟨c, -, hc⟩ | ⟨c, htrace, hc⟩
  · exact absurd hc (hout c)
  · cases c with
    | nil => exact absurd hc.symm (hout [])
    | cons b rest =>
      obtain ⟨rfl, rfl⟩ := List.cons.inj hc
      exact ⟨rest, rfl, ⟨note, htrace, hcommit⟩, fun n hn => h.last n (List.mem_append_left _ hn)⟩

/-- A commit just appended is the last. -/
theorem lastAppend_taken {note : Note} (hcommit : note.appended? = some commit) :
    LastAppend i (trace ++ [⟨i, note⟩]) trace [] commit where
  split := ⟨note, rfl, hcommit⟩
  last := fun _ h => nomatch h

/-- The call caught up with nothing here. -/
def Uncaught (i : Nat) (trace : List (Tagged Nat Note)) : Prop :=
  ∀ q p, ⟨i, .served (.catchingUp q) (.ok p)⟩ ∉ trace

theorem refreshes_extend (hnew : Uncaught i new) :
    Refreshes journal i pre (post ++ new) commit ↔ Refreshes journal i pre post commit := by
  constructor
  · intro h
    obtain ⟨q, p, hmem⟩ := h.caughtUp
    refine ⟨h.read, h.last, q, p, ?_⟩
    rcases List.mem_append.mp hmem with hold | hn
    · exact hold
    · exact absurd hn (hnew q p)
  · intro h
    obtain ⟨q, p, hmem⟩ := h.caughtUp
    exact ⟨h.read, h.last, q, p, List.mem_append_left _ hmem⟩

/-- Neither appends nor catching up: the verdict stands. -/
theorem Verdict.extend (h : Verdict journal i trace answer) (hnew : Unappended i new)
    (huncaught : Uncaught i new) : Verdict journal i (trace ++ new) answer := by
  intro pre post commit hlast
  obtain ⟨rest, rfl, hrest⟩ := hlast.shorten hnew
  rw [refreshes_extend huncaught]
  exact h pre rest commit hrest

/-! ### Where a call stands -/

/-- What a query of a run that was started answers once a projection came in. -/
def Actor.showing (a : Actor) (projected : Option RunProjection) : Option RunProjection :=
  match a.runId? with
  | none => none
  | some _ => projected.or a.lastProjection

/-- What a query answers, if it answers. -/
def Actor.shown (a : Actor) : Option RunProjection := a.showing none

theorem query_eq_ok_iff {a : Actor} {p : RunProjection} : a.query = .ok p ↔ a.shown = some p := by
  unfold Actor.query Actor.shown Actor.showing
  cases a.runId? with
  | none => simp
  | some runId => cases a.lastProjection <;> simp

theorem showing_of_view {a a' : Actor} (h : a'.view = a.view) (projected : Option RunProjection) :
    a'.showing projected = a.showing projected := by
  have hrun : a'.runId = a.runId := congrArg View.runId h
  have hlast : a'.lastProjection = a.lastProjection := congrArg View.lastProjection h
  rw [Actor.showing, Actor.showing, Actor.runId?, Actor.runId?, hrun, hlast]

theorem lastProjection_of_shown {a : Actor} {p : RunProjection} (h : a.shown = some p) :
    a.lastProjection = some p := by
  unfold Actor.shown Actor.showing at h
  cases hrun : a.runId? with
  | none => simp [hrun] at h
  | some runId => simpa [hrun] using h

/-- A signal of a run that was started, alone in its call. -/
structure Delivered (a : Actor) (d : Delivery) : Prop where
  started : a.runId? ≠ none
  single : d.rest = []

theorem Delivered.of_view {a a' : Actor} {d : Delivery} (h : Delivered a d) (hview : a'.view = a.view) :
    Delivered a' d where
  started := by
    have hrun : a'.runId = a.runId := congrArg View.runId hview
    rw [Actor.runId?, hrun]
    exact h.started
  single := h.single

/-- The projection a signal has read, which the service still has. -/
structure WasRead (journal : Journal) (i : Nat) (sv : Services) (trace : List (Tagged Nat Note))
    (d : Delivery) (p : RunProjection) (before since : List (Tagged Nat Note)) : Prop where
  split : trace = before ++ ⟨i, .served (.signalled d) (.ok p)⟩ :: since
  quiet : ∀ note, ⟨i, note⟩ ∉ since
  fold : p = foldOf (logAfter journal before) d.runId
  kept : sv.cached d.runId = p

/-- The event of a signal is in the log, and not yet caught up with. -/
structure WasRecorded (journal : Journal) (i : Nat) (w : World σ) (d : Delivery) (p : RunProjection)
    (commit : ActionCommit) : Prop where
  delivered : Delivered w.process.actor d
  made : ∃ sequence now, commit =
    signalCommit d.runId d.signal sequence (p.projectedOffset + 1) now
  taken : ∃ pre post before since,
    w.trace = pre ++ ⟨i, .served (.recording d commit) (.ok ())⟩ :: post ∧
    (∀ note, ⟨i, note⟩ ∉ post) ∧ WasRead journal i w.services pre d p before since ∧
    w.process.actor.shown ≠ some (foldOf ((logAfter journal pre).append commit) commit.runId)

/-- The call read no projection for a signal. -/
def Unread (i : Nat) (trace : List (Tagged Nat Note)) : Prop :=
  ∀ d p, ⟨i, .served (.signalled d) (.ok p)⟩ ∉ trace

/-- The stages of `process_action_commit` after its `catch_up`: of a commit of a caller, or
of a signal's, which has no action. -/
inductive Stage.Late (i : Nat) (trace : List (Tagged Nat Note)) : Stage → Prop where
  | direct {st : Stage} {q : Processing} : st.processing? = some q → q.delivery = none →
    (∀ q', st ≠ .catchingUp q') → (∀ commit, st.request = .append commit → Kept commit) →
    Unread i trace → Stage.Late i trace st
  | signal {st : Stage} {q : Processing} {d : Delivery} : st.processing? = some q →
    q.delivery = some d → d.rest = [] → q.commit.action = none →
    (∃ projection, st = .readying q projection ∨ st = .lookingUp q projection ∨
      st = .marking q projection) → Stage.Late i trace st

/-- Where a call stands, and what it has come to. -/
inductive Standing (journal : Journal) (i : Nat) (w : World σ) : Status → Prop where
  | asked {d : Delivery} : Delivered w.process.actor d → Unappended i w.trace →
    Standing journal i w (.awaiting (.signalled d))
  | read {d : Delivery} {p : RunProjection} {before since : List (Tagged Nat Note)} :
    Delivered w.process.actor d → Unappended i w.trace →
    WasRead journal i w.services w.trace d p before since →
    Standing journal i w (.answered (.signalled d) (.ok p))
  | recording {d : Delivery} {p : RunProjection} {before since : List (Tagged Nat Note)} {sequence : Nat}
      {now : String} : Delivered w.process.actor d → Unappended i w.trace →
    WasRead journal i w.services w.trace d p before since →
    Standing journal i w (.awaiting (.recording d
      (signalCommit d.runId d.signal sequence (p.projectedOffset + 1) now)))
  | recorded {d : Delivery} {p : RunProjection} {commit : ActionCommit} :
    WasRecorded journal i w d p commit →
    Standing journal i w (.answered (.recording d commit) (.ok ()))
  | refreshing {d : Delivery} {p : RunProjection} {commit : ActionCommit} :
    WasRecorded journal i w d p commit →
    Standing journal i w (.awaiting (.catchingUp ⟨commit, p.projectedOffset + 1, some d⟩))
  | waiting {q : Processing} : q.delivery = none → Unread i w.trace → Unappended i w.trace →
    Standing journal i w (.awaiting (.catchingUp q))
  | refreshed {q : Processing} {reply : Stage.Reply (.catchingUp q)} :
    (∀ projection, (Stage.readying q projection).Late i w.trace) →
    Verdict journal i w.trace
      (w.process.actor.showing ((Stage.catchingUp q).request.projected? reply)) →
    Standing journal i w (.answered (.catchingUp q) reply)
  | late {st : Stage} : st.Late i w.trace → Verdict journal i w.trace w.process.actor.shown →
    Standing journal i w (.awaiting st)
  | answered {st : Stage} {reply : st.Reply} : st.Late i w.trace →
    Verdict journal i w.trace w.process.actor.shown →
    Standing journal i w (.answered st reply)
  | failed {st : Stage} {r : Raised} : (∃ d, st = .signalled d ∨ ∃ commit, st = .recording d commit) →
    Verdict journal i w.trace w.process.actor.shown →
    Standing journal i w (.answered st (.error r))
  | ended {r : Except Raised Unit} : Verdict journal i w.trace w.process.actor.shown →
    Standing journal i w (.ended r)

/-! ### While others act -/

theorem unappended_of_not_mem (h : ∀ note, ⟨i, note⟩ ∉ new) : Unappended i new :=
  fun note hnote => absurd hnote (h note)

theorem uncaught_of_not_mem (h : ∀ note, ⟨i, note⟩ ∉ new) : Uncaught i new :=
  fun _ _ hnote => h _ hnote

theorem not_mem_append (h : ∀ note, ⟨i, note⟩ ∉ post) (hnew : ∀ note, ⟨i, note⟩ ∉ new) :
    ∀ note, ⟨i, note⟩ ∉ post ++ new := by
  intro note hnote
  rcases List.mem_append.mp hnote with hold | hn
  · exact h note hold
  · exact hnew note hn

theorem Unread.append (h : Unread i trace) (hnew : Unread i new) : Unread i (trace ++ new) := by
  intro d p hmem
  rcases List.mem_append.mp hmem with hold | hn
  · exact h d p hold
  · exact hnew d p hn

theorem Stage.Late.extend {st : Stage} (h : st.Late i trace) (hnew : Unread i new) :
    st.Late i (trace ++ new) := by
  cases h with
  | direct hq hdelivery hpast hkept hunread =>
    exact .direct hq hdelivery hpast hkept (hunread.append hnew)
  | signal hq hdelivery hsingle haction hstage => exact .signal hq hdelivery hsingle haction hstage

theorem WasRead.extend {sv sv' : Services} {d : Delivery} {p : RunProjection}
    {before since : List (Tagged Nat Note)} (h : WasRead journal i sv trace d p before since)
    (hcached : sv'.cached d.runId = sv.cached d.runId) (hnew : ∀ note, ⟨i, note⟩ ∉ new) :
    WasRead journal i sv' (trace ++ new) d p before (since ++ new) where
  split := by rw [h.split, List.append_assoc, List.cons_append]
  quiet := not_mem_append h.quiet hnew
  fold := h.fold
  kept := hcached.trans h.kept

section
variable {w w' : World σ}

theorem WasRecorded.extend {d : Delivery} {p : RunProjection} (h : WasRecorded journal i w d p commit)
    (hview : w'.process.actor.view = w.process.actor.view)
    (hcached : ∀ runId, w'.services.cached runId = w.services.cached runId)
    (htrace : w'.trace = w.trace ++ new) (hnew : ∀ note, ⟨i, note⟩ ∉ new) :
    WasRecorded journal i w' d p commit where
  delivered := h.delivered.of_view hview
  made := h.made
  taken := by
    obtain ⟨pre, post, before, since, hsplit, hpost, hread, hstale⟩ := h.taken
    refine ⟨pre, post ++ new, before, since, ?_, not_mem_append hpost hnew, ?_, ?_⟩
    · rw [htrace, hsplit, List.append_assoc, List.cons_append]
    · exact ⟨hread.split, hread.quiet, hread.fold, (hcached d.runId).trans hread.kept⟩
    · rw [Actor.shown, showing_of_view hview]
      exact hstale

/-- What others do does not move a call. -/
theorem Standing.elsewhere {x : Status} (h : Standing journal i w x)
    (hview : w'.process.actor.view = w.process.actor.view)
    (hcached : ∀ runId, w'.services.cached runId = w.services.cached runId)
    (htrace : w'.trace = w.trace ++ new) (hnew : ∀ note, ⟨i, note⟩ ∉ new) :
    Standing journal i w' x := by
  have hunread : Unread i new := fun _ _ hmem => hnew _ hmem
  have hverdict : ∀ {shown}, Verdict journal i w.trace shown → Verdict journal i w'.trace shown :=
    fun hv => htrace ▸ hv.extend (unappended_of_not_mem hnew) (uncaught_of_not_mem hnew)
  have hunappended : Unappended i w.trace → Unappended i w'.trace :=
    fun hu => htrace ▸ hu.append (unappended_of_not_mem hnew)
  have hlate : ∀ {st : Stage}, st.Late i w.trace → st.Late i w'.trace :=
    fun hl => htrace ▸ hl.extend hunread
  have hdelivered : ∀ {d : Delivery}, Delivered w.process.actor d → Delivered w'.process.actor d :=
    fun hd => hd.of_view hview
  have hshown : w'.process.actor.shown = w.process.actor.shown := showing_of_view hview none
  have hread : ∀ {d p before since}, WasRead journal i w.services w.trace d p before since →
      WasRead journal i w'.services w'.trace d p before (since ++ new) :=
    fun hr => htrace ▸ hr.extend (hcached _) hnew
  cases h with
  | asked hd hu => exact .asked (hdelivered hd) (hunappended hu)
  | read hd hu hr => exact .read (hdelivered hd) (hunappended hu) (hread hr)
  | recording hd hu hr => exact .recording (hdelivered hd) (hunappended hu) (hread hr)
  | recorded hr => exact .recorded (hr.extend hview hcached htrace hnew)
  | refreshing hr => exact .refreshing (hr.extend hview hcached htrace hnew)
  | waiting hdelivery hunr hu =>
    exact .waiting hdelivery (htrace ▸ hunr.append hunread) (hunappended hu)
  | refreshed hl hv => exact .refreshed (fun q => hlate (hl q)) (showing_of_view hview _ ▸ hverdict hv)
  | late hl hv => exact .late (hlate hl) (hshown ▸ hverdict hv)
  | answered hl hv => exact .answered (hlate hl) (hshown ▸ hverdict hv)
  | failed hst hv => exact .failed hst (hshown ▸ hverdict hv)
  | ended hv => exact .ended (hshown ▸ hverdict hv)

end

/-! ### Answers -/

/-- What was caught up with is told by the projection that was read. -/
theorem WasRead.refreshes_iff {sv : Services} {d : Delivery} {p : RunProjection}
    {before since : List (Tagged Nat Note)} (h : WasRead journal i sv pre d p before since)
    (hrun : commit.runId = d.runId) :
    Refreshes journal i pre post commit ↔
      p.projectedOffset = (logAfter journal pre).lastOffset commit.runId ∧
        ∃ q p, ⟨i, .served (.catchingUp q) (.ok p)⟩ ∈ post := by
  have hlog : logAfter journal pre = run Journal.append (logAfter journal before)
      (appendedCommits (⟨i, .served (.signalled d) (.ok p)⟩ :: since)) := by
    rw [h.split, logAfter_append]
  have hiff := foldOf_offset_run_iff (logAfter journal before)
    (appendedCommits (⟨i, .served (.signalled d) (.ok p)⟩ :: since)) commit.runId
  rw [← hlog, hrun, ← h.fold, ← hrun] at hiff
  rw [hiff]
  constructor
  · intro hr
    obtain ⟨before', d', p', since', hsplit, hquiet, hsame⟩ := hr.read
    have hnot : ∀ {rest : List (Tagged Nat Note)}, (∀ note, ⟨i, note⟩ ∉ rest) →
        ∀ b ∈ rest, b.who ≠ i := by
      intro rest hrest b hb hwho
      subst hwho
      exact hrest b.what hb
    obtain ⟨rfl, -, -⟩ := eq_of_last (P := fun b : Tagged Nat Note => b.who = i)
      (h.split.symm.trans hsplit) rfl rfl (hnot h.quiet) (hnot hquiet)
    exact ⟨⟨hsame, hr.last⟩, hr.caughtUp⟩
  · intro hr
    obtain ⟨⟨hsame, hlast⟩, hcaught⟩ := hr
    exact ⟨⟨before, d, p, since, h.split, h.quiet, hsame⟩, hlast, hcaught⟩

/-- A call that read nothing for a signal refreshes nothing. -/
theorem Unread.not_refreshes (h : Unread i pre) : ¬ Refreshes journal i pre post commit := by
  intro hr
  obtain ⟨before, d, p, since, rfl, -, -⟩ := hr.read
  exact h d p (List.mem_append_right _ List.mem_cons_self)

theorem kept_signalCommit (runId : String) (s : ActorSignal) (sequence : Nat) (offset : Int)
    (now : String) : Kept (signalCommit runId s sequence offset now) :=
  ⟨_, rfl, by simp⟩

/-! ### A call is answered -/

section
variable {w w' : World σ} {b : Behaviour} {services : Services}

/-- What the instance shows when the call appends is not the fold with the commit. -/
theorem Current.stale (h : Current w) (hlog : w.services.journal = logAfter journal w.trace)
    (hkept : Kept commit) :
    w.process.actor.shown ≠
      some (foldOf ((logAfter journal w.trace).append commit) commit.runId) := by
  intro hshown
  obtain ⟨runId, bound, hupto⟩ := h.shown _ (lastProjection_of_shown hshown)
  rw [hlog] at hupto
  exact hupto.stale hkept rfl

theorem unappended_note {note : Note} (h : note.appended? = none) : Unappended i (tagged i [note]) := by
  intro n hn
  obtain rfl : n = note := List.mem_singleton.mp (who_of_mem_tagged hn).2
  exact h

/-- An answer to a stage after the `catch_up`. -/
theorem Stage.Late.served {st : Stage} (reply : st.Reply) (h : st.Late i w.trace) (hcur : Current w)
    (hlog : w.services.journal = logAfter journal w.trace)
    (hverdict : Verdict journal i w.trace w.process.actor.shown) :
    st.Late i (w.trace ++ tagged i [.served st reply]) ∧
      Verdict journal i (w.trace ++ tagged i [.served st reply]) w.process.actor.shown := by
  have hunread : Unread i (tagged i [.served st reply]) := by
    intro d p hmem
    obtain ⟨-, hnote⟩ := who_of_mem_tagged hmem
    cases List.mem_singleton.mp hnote
    cases h with
    | direct hq _ _ _ _ => cases hq
    | signal hq _ _ _ _ => cases hq
  have huncaught : Uncaught i (tagged i [.served st reply]) := by
    intro q p hmem
    obtain ⟨-, hnote⟩ := who_of_mem_tagged hmem
    cases List.mem_singleton.mp hnote
    cases h with
    | direct _ _ hpast _ _ => exact hpast q rfl
    | signal _ _ _ _ hstage =>
      obtain ⟨projection, hst | hst | hst⟩ := hstage <;> cases hst
  refine ⟨h.extend hunread, ?_⟩
  cases htaken : (Note.served st reply).appended? with
  | none => exact hverdict.extend (unappended_note htaken) huncaught
  | some commit =>
    obtain ⟨hrequest, -⟩ := appended_ok htaken
    intro pre post commit' hlast
    obtain ⟨rfl, rfl, rfl⟩ := hlast.unique (lastAppend_taken htaken)
    cases h with
    | direct _ _ _ hkept hunread =>
      have hstale := hcur.stale hlog (hkept _ hrequest)
      exact iff_of_false hstale hunread.not_refreshes
    | signal _ _ _ _ hstage =>
      obtain ⟨projection, rfl | rfl | rfl⟩ := hstage <;> cases hrequest

/-- The event of a signal is caught up with, or not. -/
theorem WasRecorded.caughtUp {d : Delivery} {p : RunProjection}
    (h : WasRecorded journal i w d p commit) (hlog : w.services.journal = logAfter journal w.trace)
    {turns : List Turn} {reply : Except Raised RunProjection}
    (hanswer : w.services.answer b turns (.catchUp commit.runId (p.projectedOffset + 1)) =
      some (reply, services)) :
    let q : Processing := ⟨commit, p.projectedOffset + 1, some d⟩
    Verdict journal i (w.trace ++ tagged i [.served (.catchingUp q) reply])
      (w.process.actor.showing ((Stage.catchingUp q).request.projected? reply)) := by
  intro q pre' post' commit' hlast'
  obtain ⟨sequence, now, hmade⟩ := h.made
  obtain ⟨pre, post, before, since, hsplit, hquiet, hread, hstale⟩ := h.taken
  have hrun : commit.runId = d.runId := by rw [hmade]; rfl
  have hkept : Kept commit := hmade ▸ kept_signalCommit ..
  have hsingle : commit.events.length = 1 := by rw [hmade]; rfl
  have hlast : LastAppend i w.trace pre post commit :=
    ⟨⟨_, hsplit, rfl⟩, fun note hnote => absurd hnote (hquiet note)⟩
  obtain ⟨rest, rfl, hrest⟩ := hlast'.shorten (unappended_note (by cases reply <;> rfl))
  obtain ⟨rfl, rfl, rfl⟩ := hrest.unique hlast
  rw [hread.refreshes_iff hrun]
  cases reply with
  | error r =>
    refine iff_of_false hstale (fun hrefreshed => ?_)
    obtain ⟨-, q', p', hmem⟩ := hrefreshed
    rcases List.mem_append.mp hmem with hold | hnew
    · exact hquiet _ hold
    · cases List.mem_singleton.mp (who_of_mem_tagged hnew).2
  | ok p' =>
    -- The service still has the projection that was read.
    have hnow : w.services.journal = run Journal.append ((logAfter journal pre').append commit')
        (appendedCommits rest) := by
      rw [hlog, hsplit, logAfter_append]
      rfl
    have hpast : logAfter journal pre' = run Journal.append (logAfter journal before)
        (appendedCommits (⟨i, .served (.signalled d) (.ok p)⟩ :: since)) := by
      rw [hread.split, logAfter_append]
    have hbound : UpTo w.services.journal commit'.runId
        ((logAfter journal before).lastOffset commit'.runId) p := by
      have hread' := upTo_foldOf (logAfter journal before) commit'.runId
      have hfold := hread.fold
      rw [← hrun] at hfold
      rw [← hfold] at hread'
      rw [hnow, hpast]
      exact ((hread'.run _).append commit').run _
    have hp := answer_catchUp (hrun ▸ hread.kept) hbound hanswer
    have hiff := caughtUp_iff (logAfter journal before)
      (appendedCommits (⟨i, .served (.signalled d) (.ok p)⟩ :: since)) (appendedCommits rest) hkept hsingle
    have hfold := hread.fold
    rw [← hrun] at hfold
    simp only [← hpast, ← hnow, ← hfold, ← hp] at hiff
    have hshows : w.process.actor.showing (some p') = some p' := by
      unfold Actor.showing
      cases hstarted : w.process.actor.runId? with
      | none => exact absurd hstarted h.delivered.started
      | some runId => rfl
    show w.process.actor.showing (some p') = some _ ↔ _
    rw [hshows]
    constructor
    · intro hshown
      exact ⟨hiff.mp (Option.some.inj hshown), q, p', List.mem_append_right _ List.mem_cons_self⟩
    · intro hrefreshed
      exact congrArg some (hiff.mpr hrefreshed.1)

/-- What a call that was answered has come to. -/
theorem Standing.served {st : Stage} {reply : st.Reply} {turns : List Turn}
    (h : Standing journal i w (.awaiting st)) (hcur : Current w)
    (hlog : w.services.journal = logAfter journal w.trace)
    (hanswer : w.services.answer b turns st.request = some (reply, services))
    (hservices : w'.services = services) (hprocess : w'.process = w.process)
    (htrace : w'.trace = w.trace ++ tagged i [.served st reply]) :
    Standing journal i w' (.answered st reply) := by
  have hunappended : Unappended i w.trace → (Note.served st reply).appended? = none →
      Unappended i w'.trace := fun hu hnone => htrace ▸ hu.append (unappended_note hnone)
  cases h with
  | @asked d hd hu =>
    cases reply with
    | error r => exact .failed ⟨d, .inl rfl⟩ ((hunappended hu rfl).verdict _)
    | ok p =>
      obtain ⟨hfold, hkept⟩ := answer_projection hcur.services hanswer
      refine .read (hprocess ▸ hd) (hunappended hu rfl)
        (show WasRead journal i _ _ d p w.trace [] from ⟨htrace, ?_, ?_, ?_⟩)
      · exact fun _ hmem => nomatch hmem
      · rw [← hlog]
        exact hfold
      · rw [hservices]
        exact hkept
  | @recording d p before since sequence now hd hu hread =>
    cases reply with
    | error r => exact .failed ⟨d, .inr ⟨_, rfl⟩⟩ ((hunappended hu rfl).verdict _)
    | ok u =>
      refine .recorded ⟨hprocess ▸ hd, ⟨sequence, now, rfl⟩, w.trace, [], before, since, htrace, ?_, ?_, ?_⟩
      · exact fun _ hmem => nomatch hmem
      · refine ⟨hread.split, hread.quiet, hread.fold, ?_⟩
        have hsame := answer_append_projections hanswer
        rw [hservices, ← hread.kept, Services.cached, Services.cached, hsame]
      · rw [hprocess]
        exact hcur.stale hlog (kept_signalCommit ..)
  | @refreshing d p commit hrecorded =>
    refine .refreshed (fun projection => ?_) ?_
    · obtain ⟨sequence, now, hmade⟩ := hrecorded.made
      exact .signal rfl rfl hrecorded.delivered.single (by rw [hmade]; rfl) ⟨projection, .inl rfl⟩
    · rw [htrace, hprocess]
      exact hrecorded.caughtUp hlog hanswer
  | @waiting q hdelivery hunread hu =>
    have hnone : (Note.served (.catchingUp q) reply).appended? = none := by cases reply <;> rfl
    refine .refreshed (fun projection => ?_) ((hunappended hu hnone).verdict _)
    refine .direct rfl hdelivery (fun _ h => nomatch h) (fun _ h => nomatch h) ?_
    rw [htrace]
    refine hunread.append (fun d p hmem => ?_)
    cases List.mem_singleton.mp (who_of_mem_tagged hmem).2
  | late hlate hverdict =>
    obtain ⟨hlate', hverdict'⟩ := hlate.served reply hcur hlog hverdict
    rw [← htrace] at hlate' hverdict'
    exact .answered hlate' (hprocess ▸ hverdict')

end

/-! ### A call goes on -/

section
variable {K : Kernel σ} {m : Moment}

theorem Follows.late {st st' : Stage} (h : Follows st st') (hst : st.Late i trace) :
    st'.Late i trace := by
  cases hst with
  | direct hq hdelivery hpast hkept hunread =>
    cases h with
    | recording => cases hq
    | outcome | intended =>
      refine .direct hq hdelivery (fun _ h => nomatch h) (fun commit hcommit => ?_) hunread
      cases hcommit
      exact ⟨_, rfl, by simp⟩
    | recovering =>
      refine .direct hq hdelivery (fun _ h => nomatch h) (fun commit hcommit => ?_) hunread
      cases hcommit
      exact ⟨_, rfl, by simp⟩
    | handler hguarded =>
      rw [hguarded.processing] at hq
      exact .direct hq hdelivery (fun _ h => nomatch h) (fun _ h => nomatch h) hunread
    | _ => exact .direct hq hdelivery (fun _ h => nomatch h) (fun _ h => nomatch h) hunread
  | signal hq hdelivery hsingle haction hstage =>
    obtain ⟨projection, rfl | rfl | rfl⟩ := hstage
    · cases h with
      | lookingUp => exact .signal hq hdelivery hsingle haction ⟨projection, .inr (.inl rfl)⟩
      | handler hguarded => cases hguarded
    · cases h with
      | marking => exact .signal hq hdelivery hsingle haction ⟨projection, .inr (.inr rfl)⟩
      | handler hguarded => cases hguarded
    · cases h with
      | handler hguarded => cases hguarded

/-- A single call is over when `process_action_commit` returns. -/
theorem processed_ended (m : Moment) (p : Process σ) {delivery : Option Delivery}
    (h : ∀ d, delivery = some d → d.rest = []) : ∃ r, (processed K m p delivery).next = .end r := by
  cases delivery with
  | none => exact ⟨_, rfl⟩
  | some d =>
    unfold processed
    simp only
    split
    · exact ⟨_, rfl⟩
    · rw [h d rfl]
      exact ⟨_, rfl⟩

theorem Stage.Late.resumed {st : Stage} (reply : st.Reply) {p : Process σ} (h : st.Late i trace) :
    (resume K m p st reply).process.actor.view = p.actor.view ∧
      ∀ st', (resume K m p st reply).next = .await st' → st'.Late i trace := by
  have hview := resume_view (K := K) m p st reply
  have hcont := resume_continued K m p st reply
  have hnone : ∀ projection, st.request.projected? reply ≠ some projection := by
    intro projection hprojection
    cases h with
    | direct hq _ hpast _ _ =>
      cases st with
      | starting _ | signalled _ => cases hq
      | catchingUp q => exact hpast q rfl
      | _ => cases hprojection
    | signal _ _ _ _ hstage =>
      obtain ⟨_, rfl | rfl | rfl⟩ := hstage <;> cases hprojection
  refine ⟨hview.resolve_right (fun hnew => ?_), ?_⟩
  · obtain ⟨projection, hprojection, -⟩ := hnew
    exact hnone projection hprojection
  · clear hview hnone
    generalize resume K m p st reply = r at hcont
    intro st' hst'
    cases hcont with
    | ended => cases hst'
    | awaits hfollows =>
      cases hst'
      exact hfollows.late h
    | @returned _ _ q hreturns =>
      have hsingle : ∀ d, q.delivery = some d → d.rest = [] := by
        intro d hd
        cases h with
        | direct hq hdelivery _ _ _ =>
          rw [hreturns.processing] at hq
          cases hq
          cases hdelivery.symm.trans hd
        | signal hq hdelivery hsingle _ _ =>
          rw [hreturns.processing] at hq
          cases hq
          cases hdelivery.symm.trans hd
          exact hsingle
      obtain ⟨r, hr⟩ := processed_ended (K := K) m p hsingle
      rw [hr] at hst'
      cases hst'
    | acts haction =>
      cases hst'
      cases h with
      | direct hq hdelivery _ _ hunread =>
        cases hq
        exact .direct rfl hdelivery (fun _ h => nomatch h) (fun _ h => nomatch h) hunread
      | signal hq _ _ hnone _ =>
        cases hq
        cases haction.symm.trans hnone
    | unintended | unrecorded =>
      cases hst'
      cases h with
      | direct hq hdelivery _ _ hunread =>
        exact .direct hq hdelivery (fun _ h => nomatch h) (fun _ h => nomatch h) hunread
      | signal _ _ _ _ hstage =>
        obtain ⟨_, hst | hst | hst⟩ := hstage <;> cases hst
    | started _ | pins _ | pinned | recorded | sweeps _ =>
      cases h with
      | direct hq _ _ _ _ => cases hq
      | signal hq _ _ _ _ => cases hq
    | caughtUp =>
      cases h with
      | direct _ _ hpast _ _ => exact absurd rfl (hpast _)
      | signal _ _ _ _ hstage =>
        obtain ⟨_, hst | hst | hst⟩ := hstage <;> cases hst

theorem unappended_ofCall {notes : List Note} (h : ∀ n ∈ notes, n.ofCall = true) :
    Unappended i (tagged i notes) :=
  fun n hn => appended?_ofCall (h n (who_of_mem_tagged hn).2)

theorem unread_ofCall {notes : List Note} (h : ∀ n ∈ notes, n.ofCall = true) :
    Unread i (tagged i notes) :=
  fun _ _ hmem => nomatch h _ (who_of_mem_tagged hmem).2

theorem uncaught_ofCall {notes : List Note} (h : ∀ n ∈ notes, n.ofCall = true) :
    Uncaught i (tagged i notes) :=
  fun _ _ hmem => nomatch h _ (who_of_mem_tagged hmem).2

variable {w w' : World σ}

/-- What a call that goes on comes to. -/
theorem Standing.resumed {st : Stage} {reply : st.Reply} (h : Standing journal i w (.answered st reply))
    (hservices : w'.services = w.services)
    (hprocess : w'.process = (resume K m w.process st reply).process)
    (htrace : w'.trace = w.trace ++ tagged i (resume K m w.process st reply).notes) :
    Standing journal i w' (resume K m w.process st reply).next.status := by
  have hnotes := resume_notes (K := K) m w.process st reply
  cases h with
  | @read d p before since hd hu hread =>
    have hsame : w'.trace = w.trace := htrace.trans (List.append_nil _)
    refine .recording (hd.of_view (by rw [hprocess]; rfl)) (hsame ▸ hu)
      (?_ : WasRead journal i _ _ d p before since)
    rw [hsame, hservices]
    exact hread
  | @recorded d p commit hrecorded =>
    have hsame : w'.trace = w.trace := htrace.trans (List.append_nil _)
    obtain ⟨sequence, now, hmade⟩ := hrecorded.made
    have hgoes : (resume K m w.process (.recording d commit) (.ok ())).next.status =
        .awaiting (.catchingUp ⟨commit, p.projectedOffset + 1, some d⟩) := by
      rw [hmade]
      rfl
    rw [hgoes]
    refine .refreshing ⟨hrecorded.delivered.of_view (by rw [hprocess]; rfl), hrecorded.made, ?_⟩
    rw [hsame, hservices, hprocess]
    exact hrecorded.taken
  | @refreshed q answer hlate hverdict =>
    have hsame : w'.trace = w.trace := by
      rw [htrace]
      cases answer <;> exact List.append_nil _
    cases answer with
    | ok p' =>
      refine .late ?_ ?_
      · rw [hsame]
        exact hlate p'
      · rw [hsame, hprocess]
        exact hverdict
    | error r =>
      refine .ended ?_
      rw [hsame, hprocess]
      exact hverdict
  | answered hlate hverdict =>
    obtain ⟨hview, hnext⟩ := hlate.resumed (K := K) (m := m) reply (p := w.process)
    have hverdict' : Verdict journal i w'.trace w'.process.actor.shown := by
      rw [htrace, hprocess, Actor.shown, showing_of_view hview]
      exact hverdict.extend (unappended_ofCall hnotes) (uncaught_ofCall hnotes)
    generalize hr : (resume K m w.process st reply).next = next at hnext
    cases next with
    | await st' =>
      refine .late ?_ hverdict'
      rw [htrace]
      exact (hnext st' rfl).extend (unread_ofCall hnotes)
    | «end» r => exact .ended hverdict'
  | @failed _ r hst hverdict =>
    obtain ⟨d, rfl | ⟨commit, rfl⟩⟩ := hst
    · have hsame : w'.trace = w.trace := htrace.trans (List.append_nil _)
      refine .ended ?_
      rw [hsame, hprocess]
      exact hverdict
    · have hsame : w'.trace = w.trace := htrace.trans (List.append_nil _)
      refine .ended ?_
      rw [hsame, hprocess]
      exact hverdict

end

end
end AgentKernel.Workflow
