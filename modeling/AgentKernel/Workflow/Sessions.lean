import AgentKernel.Turns.Keys
import AgentKernel.Workflow.Freshness
import AgentKernel.Workflow.Signals

/-! Signals delivered to a run one after the other.

A session starts a run and then delivers one signal at a time: each call is driven through
its awaits to its end before the next is made, and when an instance has continued as new
its successor is started in between. While a call goes on, every event of the run has an
id of its own, numbered below the next one (`Issued`), and what the instance shows when
`process_action_commit` returns is the fold of the log (`Doing`). So when the workflow
continues as new it does so in a state that its log determines (`resume_doing`), but for
what `RunInput` leaves out. -/
namespace AgentKernel.Workflow
open Lib Dedupe Turns Events Projection Reconcile

/-! ### Sessions -/

/-- What a call meets at an await: how the service behaves, and what the call finds when it
goes on. -/
structure Await where
  behaviour : Behaviour := {}
  moment : Moment := {}

/-- A call goes on from await to await. -/
def awaited (i : Nat) (ports : List Await) : List Label :=
  ports.flatMap (fun a => [.serve i a.behaviour, .resume i a.moment])

/-- A signal, and what its call meets. -/
structure Arrival where
  signal : ActorSignal
  ports : List Await

section
variable {σ : Type} (K : Kernel σ)

/-- A call with nothing else going on. -/
def attend (w : World σ) (entry : Entry) (ports : List Await) : World σ :=
  run (World.step K) w (.call entry :: awaited w.calls.length ports)

/-- An instance that continued as new is replaced, and the new one reads its projection. -/
def renew (w : World σ) : World σ :=
  run (World.step K) w (.restart :: awaited w.calls.length [{}])

def deliver (w : World σ) (r : Arrival) : World σ :=
  renew K (attend K w (.signal r.signal) r.ports)

/-- A run is started over a log. -/
def opened (journal : Journal) (store : σ) (input : RunInput) (ports : List Await) : World σ :=
  renew K (attend K (World.fresh journal store) (.run input) ports)

end

/-! ### Sessions that do not continue as new -/

/-- Outside a Temporal workflow nothing continues as new. -/
def Moment.still (m : Moment) : Moment := { m with inWorkflow := false }

def Await.still (a : Await) : Await := { a with moment := a.moment.still }

def Arrival.still (r : Arrival) : Arrival := { r with ports := r.ports.map Await.still }

theorem still_continues (a : Actor) (threshold : Int) (m : Moment) :
    a.shouldContinueAsNew threshold m.still = false := rfl

/-! ### Event ids -/

theorem signalEventId_injective : Function.Injective signalEventId := by
  intro m n h
  have hlist := congrArg String.toList h
  unfold signalEventId at hlist
  rw [String.toList_append, String.toList_append] at hlist
  have htext := List.append_cancel_left hlist
  exact Text.natText_injective (String.toList_inj.mp htext)

theorem policyPinEventId_ne_signalEventId (runId : String) (n : Nat) :
    policyPinEventId runId ≠ signalEventId n := by
  intro h
  have hlist := congrArg String.toList h
  unfold policyPinEventId signalEventId at hlist
  rw [String.toList_append, String.toList_append] at hlist
  have hpin : "evt-policy-pinned-".toList = 'e' :: 'v' :: 't' :: '-' :: 'p' :: "olicy-pinned-".toList := rfl
  have hsignal : "evt-signal-".toList = 'e' :: 'v' :: 't' :: '-' :: 's' :: "ignal-".toList := rfl
  rw [hpin, hsignal] at hlist
  exact absurd (congrArg (fun l => l[4]?) hlist) (fun h => nomatch h)

/-- The events of the run are facts with ids of their own, those of signals numbered below
the next number. -/
structure Issued (runId : String) (j : Journal) (next : Nat) : Prop where
  ids : ∀ e ∈ j.eventsOf runId,
    e.eventId = policyPinEventId runId ∨ ∃ k < next, e.eventId = signalEventId k
  nodup : ((j.eventsOf runId).map RuntimeEvent.eventId).Nodup
  kept : ∀ e ∈ j.eventsOf runId, e.eventAuthority ≠ .derivedDiagnostic

section
variable {runId : String} {j : Journal} {next : Nat}

theorem Issued.mono (h : Issued runId j next) {next' : Nat} (hle : next ≤ next') :
    Issued runId j next' where
  ids := by
    intro e he
    rcases h.ids e he with hpin | ⟨k, hk, hid⟩
    · exact .inl hpin
    · exact .inr ⟨k, Nat.lt_of_lt_of_le hk hle, hid⟩
  nodup := h.nodup
  kept := h.kept

theorem issued_nil (h : j.eventsOf runId = []) (next : Nat) : Issued runId j next where
  ids := by
    rw [h]
    exact fun _ he => nomatch he
  nodup := by
    rw [h]
    exact List.nodup_nil
  kept := by
    rw [h]
    exact fun _ he => nomatch he

/-- The only event of a commit of the run. -/
theorem eventsOf_append_single (j : Journal) (commit : ActionCommit) {e : RuntimeEvent} (hrun : commit.runId = runId)
    (hsingle : commit.events = [e]) : ∃ offset,
    (j.append commit).eventsOf runId = j.eventsOf runId ++ [{ e with commitOffset := offset }] := by
  refine ⟨j.lastOffset runId + 1, ?_⟩
  rw [j.eventsOf_append, if_pos hrun.symm, hsingle]
  rfl

theorem Issued.pinned (h : j.eventsOf runId = []) (versions : RunPolicyVersions) (now : String)
    (next : Nat) : Issued runId (j.append (policyPinnedCommit runId versions now)) next := by
  obtain ⟨offset, hevents⟩ := eventsOf_append_single j (policyPinnedCommit runId versions now)
    (show _ = runId from rfl) rfl
  rw [h, List.nil_append] at hevents
  refine ⟨?_, ?_, ?_⟩
  · rw [hevents]
    intro e he
    rw [List.mem_singleton.mp he]
    exact .inl rfl
  · rw [hevents]
    exact List.nodup_singleton _
  · rw [hevents]
    intro e he
    rw [List.mem_singleton.mp he]
    exact fun hd => nomatch hd

/-- The event of a signal gets the next number. -/
theorem Issued.signalled (h : Issued runId j next) (s : ActorSignal) (offset : Int) (now : String) :
    Issued runId (j.append (signalCommit runId s next offset now)) (next + 1) := by
  obtain ⟨offset', hevents⟩ := eventsOf_append_single j (signalCommit runId s next offset now)
    (show _ = runId from rfl) rfl
  refine ⟨?_, ?_, ?_⟩
  · rw [hevents]
    intro e he
    rcases List.mem_append.mp he with hold | hnew
    · exact (h.mono (Nat.le_succ next)).ids e hold
    · rw [List.mem_singleton.mp hnew]
      exact .inr ⟨next, Nat.lt_succ_self next, rfl⟩
  · rw [hevents, List.map_append]
    refine List.nodup_append.mpr ⟨h.nodup, List.nodup_singleton _, ?_⟩
    intro id hold id' hnew heq
    obtain ⟨e, he, rfl⟩ := List.mem_map.mp hold
    obtain rfl : id' = signalEventId next := List.mem_singleton.mp hnew
    rcases h.ids e he with hpin | ⟨k, hk, hid⟩
    · exact policyPinEventId_ne_signalEventId runId next (hpin.symm.trans heq)
    · have hsame := signalEventId_injective (hid.symm.trans heq)
      omega
  · rw [hevents]
    intro e he
    rcases List.mem_append.mp he with hold | hnew
    · exact h.kept e hold
    · rw [List.mem_singleton.mp hnew]
      exact fun hd => nomatch hd

theorem Issued.offset (h : Issued runId j next) :
    (foldOf j runId).projectedOffset = j.lastOffset runId :=
  (foldOf_offset_iff j runId).mpr (fun e he => h.kept e (List.mem_of_getLast? he))

end
/-! ### A call of a session -/

/-- The projection of the run, as a signal has read it. -/
structure Reading (runId : String) (sv : Services) (j : Journal) (p : RunProjection) : Prop where
  fold : p = foldOf j runId
  cached : sv.cached runId = p

/-- The stages after a `catch_up` that has answered. -/
inductive Stage.Shows (runId : String) : Stage → Prop where
  | readying {q : Processing} {d : Delivery} {p : RunProjection} : q.delivery = some d →
    d.runId = runId → q.commit.action = none → Stage.Shows runId (.readying q p)
  | lookingUp {q : Processing} {d : Delivery} {p : RunProjection} : q.delivery = some d →
    d.runId = runId → q.commit.action = none → Stage.Shows runId (.lookingUp q p)
  | marking {q : Processing} {d : Delivery} {p : RunProjection} : q.delivery = some d →
    d.runId = runId → q.commit.action = none → Stage.Shows runId (.marking q p)

/-- The stages before. -/
def Stage.early : Stage → Bool
  | .starting _ | .pinning _ _ | .signalled _ | .recording _ _ | .catchingUp _ => true
  | _ => false

/-- What a call of `run` or `signal` is at, when no other call is under way. -/
inductive Doing (runId : String) (sv : Services) (a : Actor) : Status → Prop where
  | starting {input : RunInput} : input.runId = runId → sv.journal.eventsOf runId = [] →
    Doing runId sv a (.awaiting (.starting input))
  | started {input : RunInput} {p : RunProjection} : input.runId = runId →
    sv.journal.eventsOf runId = [] → Doing runId sv a (.answered (.starting input) (.ok p))
  | pinning {input : RunInput} {versions : RunPolicyVersions} {now : String} :
    sv.journal.eventsOf runId = [] →
    Doing runId sv a (.awaiting (.pinning input (policyPinnedCommit runId versions now)))
  | pinned {input : RunInput} {commit : ActionCommit} : Issued runId sv.journal (a.signalSequence + 1) →
    Doing runId sv a (.answered (.pinning input commit) (.ok ()))
  | asked {d : Delivery} : d.runId = runId → Issued runId sv.journal a.signalSequence →
    Doing runId sv a (.awaiting (.signalled d))
  | read {d : Delivery} {p : RunProjection} : d.runId = runId →
    Issued runId sv.journal a.signalSequence → Reading runId sv sv.journal p →
    Doing runId sv a (.answered (.signalled d) (.ok p))
  | recording {d : Delivery} {p : RunProjection} {now : String} : d.runId = runId →
    Issued runId sv.journal a.signalSequence → Reading runId sv sv.journal p →
    Doing runId sv a (.awaiting (.recording d
      (signalCommit d.runId d.signal a.signalSequence (p.projectedOffset + 1) now)))
  | recorded {d : Delivery} {j : Journal} {p : RunProjection} {now : String} : d.runId = runId →
    Issued runId j a.signalSequence → Reading runId sv j p →
    sv.journal = j.append (signalCommit d.runId d.signal a.signalSequence (p.projectedOffset + 1) now) →
    Doing runId sv a (.answered (.recording d
      (signalCommit d.runId d.signal a.signalSequence (p.projectedOffset + 1) now)) (.ok ()))
  | refreshing {d : Delivery} {j : Journal} {p : RunProjection} {now : String} : d.runId = runId →
    Issued runId j a.signalSequence → Reading runId sv j p →
    sv.journal = j.append (signalCommit d.runId d.signal a.signalSequence (p.projectedOffset + 1) now) →
    Doing runId sv a (.awaiting (.catchingUp
      ⟨signalCommit d.runId d.signal a.signalSequence (p.projectedOffset + 1) now,
        p.projectedOffset + 1, some d⟩))
  | refreshed {q : Processing} {p : RunProjection} : (∀ p, (Stage.readying q p).Shows runId) →
    Issued runId sv.journal (a.signalSequence + 1) → p = foldOf sv.journal runId →
    Doing runId sv a (.answered (.catchingUp q) (.ok p))
  | shows {st : Stage} : st.Shows runId → Issued runId sv.journal (a.signalSequence + 1) →
    a.lastProjection = some (foldOf sv.journal runId) → Doing runId sv a (.awaiting st)
  | shown {st : Stage} {reply : st.Reply} : st.Shows runId →
    Issued runId sv.journal (a.signalSequence + 1) →
    a.lastProjection = some (foldOf sv.journal runId) → Doing runId sv a (.answered st reply)
  | failed {st : Stage} {r : Raised} : st.early = true →
    Issued runId sv.journal (a.signalSequence + 1) →
    Doing runId sv a (.answered st (.error r))
  | ended {r : Except Raised Unit} : Issued runId sv.journal (a.signalSequence + 1) →
    Doing runId sv a (.ended r)

section
variable {σ : Type} {runId : String} {sv sv' : Services} {a : Actor}

theorem Doing.served {st : Stage} {reply : st.Reply} (h : Doing runId sv a (.awaiting st))
    (hdate : sv.UpToDate) {b : Behaviour} {turns : List Turn}
    (hanswer : sv.answer b turns st.request = some (reply, sv')) :
    Doing runId sv' a (.answered st reply) := by
  have hjournal := answer_journal hanswer
  have hold : ∀ {next : Nat}, Issued runId sv.journal next → next ≤ a.signalSequence + 1 →
      sv'.journal = sv.journal → Issued runId sv'.journal (a.signalSequence + 1) :=
    fun hissued hle hsame => hsame ▸ hissued.mono hle
  cases h with
  | starting hrun hnil =>
    cases reply with
    | error r => exact .failed rfl (hold (issued_nil hnil _) (Nat.le_refl _) hjournal)
    | ok p =>
      have hsame : sv'.journal = sv.journal := hjournal
      exact .started hrun (hsame ▸ hnil)
  | @pinning input versions now hnil =>
    cases reply with
    | error r => exact .failed rfl (hold (issued_nil hnil _) (Nat.le_refl _) hjournal)
    | ok u =>
      have happended : sv'.journal = sv.journal.append (policyPinnedCommit runId versions now) := hjournal
      refine .pinned ?_
      rw [happended]
      exact .pinned hnil versions now _
  | asked hrun hissued =>
    cases reply with
    | error r => exact .failed rfl (hold hissued (Nat.le_succ _) hjournal)
    | ok p =>
      have hsame : sv'.journal = sv.journal := hjournal
      subst hrun
      obtain ⟨hfold, hcached⟩ := answer_projection hdate hanswer
      exact .read rfl (hsame ▸ hissued) ⟨hsame ▸ hfold, hcached⟩
  | @recording d p now hrun hissued hreading =>
    cases reply with
    | error r => exact .failed rfl (hold hissued (Nat.le_succ _) hjournal)
    | ok u =>
      refine .recorded hrun hissued ⟨hreading.fold, ?_⟩ hjournal
      have hprojections := answer_append_projections hanswer
      rw [← hreading.cached, Services.cached, Services.cached, hprojections]
  | @refreshing d j p now hrun hissued hreading hlog =>
    subst hrun
    have hnext : Issued d.runId sv.journal (a.signalSequence + 1) := by
      rw [hlog]
      exact hissued.signalled d.signal _ now
    cases reply with
    | error r => exact .failed rfl (hold hnext (Nat.le_refl _) hjournal)
    | ok p' =>
      have hsame : sv'.journal = sv.journal := hjournal
      refine .refreshed (fun p => .readying rfl rfl rfl) (hsame ▸ hnext) ?_
      -- The signal's event comes right after what the signal has read.
      have hbound : UpTo sv.journal d.runId (j.lastOffset d.runId) p := by
        rw [hlog, hreading.fold]
        exact (upTo_foldOf j d.runId).append _
      have hp := answer_catchUp hreading.cached hbound hanswer
      have hkept : Kept (signalCommit d.runId d.signal a.signalSequence (p.projectedOffset + 1) now) :=
        ⟨_, rfl, by simp⟩
      have hiff := caughtUp_iff j [] [] hkept rfl
      have hfold := hreading.fold
      rw [hsame, hp, hlog]
      rw [hfold] at hiff ⊢
      exact hiff.mpr hissued.offset
  | shows hst hissued hlast =>
    have hsame : sv'.journal = sv.journal := by
      rw [hjournal]
      cases hst <;> rfl
    exact .shown hst (hsame ▸ hissued) (hsame ▸ hlast)

/-! ### The call goes on -/

/-- Signals are handled up to the first one that is taken. -/
theorem handleSignals_doing {p : Process σ} (hrun : p.actor.runId = some runId)
    (hissued : Issued runId sv.journal (p.actor.signalSequence + 1)) (signals : List ActorSignal) :
    Doing runId sv (handleSignals p signals).process.actor (handleSignals p signals).next.status := by
  induction signals with
  | nil => exact .ended hissued
  | cons s rest ih =>
    unfold handleSignals
    split
    · exact .ended hissued
    · rename_i runId' hrun'
      split
      · exact ih
      · split
        · exact ih
        · refine .asked ?_ hissued
          unfold Actor.runId? at hrun'
          rw [hrun] at hrun'
          simp only at hrun'
          split at hrun'
          · cases hrun'
          · exact (Option.some.inj hrun').symm

theorem handleSignals_continuedAs (p : Process σ) (signals : List ActorSignal) :
    (handleSignals p signals).process.actor.continuedAs = p.actor.continuedAs := by
  induction signals with
  | nil => rfl
  | cons s rest ih =>
    unfold handleSignals
    split
    · rfl
    · split
      · exact ih
      · split
        · exact ih
        · rfl

/-- A call is where it should be, in an instance of the run that has not continued as new. -/
structure Resumed.Doing (runId : String) (sv : Services) (r : Resumed σ) : Prop where
  runId_eq : r.process.actor.runId = some runId
  unrenewed : r.process.actor.continuedAs = none
  doing : AgentKernel.Workflow.Doing runId sv r.process.actor r.next.status

variable {p : Process σ}

theorem handleSignals_resumed (hrun : p.actor.runId = some runId) (hfresh : p.actor.continuedAs = none)
    (hissued : Issued runId sv.journal (p.actor.signalSequence + 1)) (signals : List ActorSignal) :
    (handleSignals p signals).Doing runId sv where
  runId_eq := (congrArg View.runId (handleSignals_view p signals)).trans hrun
  unrenewed := (handleSignals_continuedAs p signals).trans hfresh
  doing := handleSignals_doing hrun hissued signals

theorem replayPending_resumed (hrun : p.actor.runId = some runId) (hfresh : p.actor.continuedAs = none)
    (hissued : Issued runId sv.journal (p.actor.signalSequence + 1)) (input : RunInput) :
    (replayPending p input).Doing runId sv :=
  handleSignals_resumed (p := { p with actor := { p.actor with pendingSignals := [] } }) hrun hfresh hissued _

/-- A signal's round was counted. -/
def Process.counted (p : Process σ) : Process σ :=
  { p with actor := { p.actor with historyEventCount := p.actor.historyEventCount + 1 } }

/-- The instance continues as new after a signal. -/
def continuing (p : Process σ) (d : Delivery) : Resumed σ :=
  { process := { p.counted with actor := { p.counted.actor with
      continuedAs := some (p.counted.actor.carried d.runId) } }
    next := .end (.error continueAsNewError)
    notes := [.continuedAsNew (p.counted.actor.carried d.runId)] }

/-- The instance goes on with the next signal. -/
def staying (p : Process σ) (d : Delivery) : Resumed σ :=
  let r := handleSignals p.counted d.rest
  { r with notes := .handled d.signal :: r.notes }

/-- A reset happens in a state that the log determines, and drops the signals that were not
replayed yet. -/
structure Renews (K : Kernel σ) (runId : String) (sv : Services) (m : Moment) (p : Process σ) (st : Stage)
    (reply : st.Reply) (d : Delivery) : Prop where
  marked : st.marked? = some d
  runId_eq : d.runId = runId
  pending : p.actor.pendingSignals = []
  issued : Issued runId sv.journal (p.actor.signalSequence + 1)
  shown : p.actor.lastProjection = some (foldOf sv.journal runId)
  renewed : resume K m p st reply = continuing p d
  still : resume K m.still p st reply = staying p d

theorem processed_some (K : Kernel σ) (m : Moment) (p : Process σ) (d : Delivery) :
    processed K m p (some d) =
      if p.counted.actor.shouldContinueAsNew K.historyEventThreshold m = true then continuing p d
      else staying p d := rfl

theorem processed_still (K : Kernel σ) (m : Moment) (p : Process σ) (d : Delivery) :
    processed K m.still p (some d) = staying p d := by
  rw [processed_some, still_continues, if_neg Bool.false_ne_true]

/-- `process_action_commit` returns in a session. -/
theorem processed_doing (K : Kernel σ) (m : Moment) {d : Delivery} (hrun : p.actor.runId = some runId)
    (hfresh : p.actor.continuedAs = none) (hissued : Issued runId sv.journal (p.actor.signalSequence + 1)) :
    (processed K m p (some d) = processed K m.still p (some d) ∧
      (processed K m p (some d)).Doing runId sv) ∨
    (p.actor.pendingSignals = [] ∧ processed K m p (some d) = continuing p d) := by
  by_cases hreset : p.counted.actor.shouldContinueAsNew K.historyEventThreshold m = true
  · refine .inr ⟨?_, by rw [processed_some, if_pos hreset]⟩
    unfold Actor.shouldContinueAsNew at hreset
    rw [Bool.and_eq_true] at hreset
    have hpending := hreset.2
    split at hpending
    · cases hpending
    · rw [Bool.and_eq_true] at hpending
      exact List.isEmpty_iff.mp hpending.1
  · have hstays : processed K m p (some d) = staying p d := by rw [processed_some, if_neg hreset]
    refine .inl ⟨hstays.trans (processed_still K m p d).symm, ?_⟩
    rw [hstays]
    have hrest : (handleSignals p.counted d.rest).Doing runId sv :=
      handleSignals_resumed (p := p.counted) hrun hfresh hissued d.rest
    obtain ⟨hid, hkept, hdoing⟩ := hrest
    exact ⟨hid, hkept, hdoing⟩

/-- **A call of a session goes on.** It comes to what it would come to if nothing ever
continued as new, or it resets the history. -/
theorem resume_doing (K : Kernel σ) (m : Moment) {st : Stage} {reply : st.Reply}
    (h : Doing runId sv p.actor (.answered st reply)) (hrun : p.actor.runId = some runId)
    (hfresh : p.actor.continuedAs = none) :
    (resume K m p st reply = resume K m.still p st reply ∧ (resume K m p st reply).Doing runId sv) ∨
    ∃ d, Renews K runId sv m p st reply d := by
  have hreturn : ∀ {q : Processing} {d : Delivery}, q.delivery = some d → st.marked? = some d →
      d.runId = runId → Issued runId sv.journal (p.actor.signalSequence + 1) →
      p.actor.lastProjection = some (foldOf sv.journal runId) →
      (∀ m, resume K m p st reply = processed K m p q.delivery) →
      (resume K m p st reply = resume K m.still p st reply ∧ (resume K m p st reply).Doing runId sv) ∨
      ∃ d, Renews K runId sv m p st reply d := by
    intro q d hdelivery hmarked hid hissued hlast hprocessed
    have hm := hprocessed m
    have hstill := hprocessed m.still
    rw [hdelivery] at hm hstill
    rcases processed_doing K m (d := d) hrun hfresh hissued with ⟨hsame, hdoing⟩ | ⟨hpending, hreset⟩
    · rw [hm, hstill]
      exact .inl ⟨hsame, hdoing⟩
    · refine .inr ⟨d, hmarked, hid, hpending, hissued, hlast, hm.trans hreset, ?_⟩
      rw [hstill, processed_still]
  cases h with
  | @started input projection hid hnil =>
    refine .inl ⟨rfl, ?_⟩
    unfold resume
    simp only
    split
    · exact replayPending_resumed (p := { p with actor := { p.actor with
        lastProjection := some projection } }) hrun hfresh (issued_nil hnil _) input
    · subst hid
      exact ⟨hrun, hfresh, .pinning hnil⟩
  | pinned hissued => exact .inl ⟨rfl, replayPending_resumed hrun hfresh hissued _⟩
  | read hid hissued hreading => exact .inl ⟨rfl, hrun, hfresh, .recording hid hissued hreading⟩
  | recorded hid hissued hreading hlog => exact .inl ⟨rfl, hrun, hfresh, .refreshing hid hissued hreading hlog⟩
  | refreshed hshows hissued hfold => exact .inl ⟨rfl, hrun, hfresh, .shows (hshows _) hissued (congrArg some hfold)⟩
  | @shown _ reply hst hissued hlast =>
    cases hst with
    | readying hdelivery hid haction =>
      cases reply with
      | error r => exact .inl ⟨rfl, hrun, hfresh, .ended hissued⟩
      | ok ready =>
        cases ready with
        | false => exact hreturn hdelivery hdelivery hid hissued hlast (fun _ => rfl)
        | true => exact .inl ⟨rfl, hrun, hfresh, .shows (.lookingUp hdelivery hid haction) hissued hlast⟩
    | lookingUp hdelivery hid haction =>
      cases reply with
      | error r => exact .inl ⟨rfl, hrun, hfresh, .ended hissued⟩
      | ok seen =>
        cases seen with
        | true => exact hreturn hdelivery hdelivery hid hissued hlast (fun _ => rfl)
        | false => exact .inl ⟨rfl, hrun, hfresh, .shows (.marking hdelivery hid haction) hissued hlast⟩
    | @marking q d _ hdelivery hid haction =>
      cases reply with
      | error r => exact .inl ⟨rfl, hrun, hfresh, .ended hissued⟩
      | ok u =>
        refine hreturn hdelivery hdelivery hid hissued hlast (fun m => ?_)
        cases u
        unfold resume
        simp only [haction]
  | @failed _ r hearly hissued =>
    have hends : ∀ m, resume K m p st (.error r) = { process := p, next := .end (.error r) } := by
      intro m
      cases st <;> cases hearly <;> rfl
    rw [hends, hends]
    exact .inl ⟨rfl, hrun, hfresh, .ended hissued⟩

end
end AgentKernel.Workflow
