import AgentKernel.Workflow.Sequential

/-! Signals from peers.

A signal may say which run it comes from, and `is_peer_run_authorized` says whether the run
may send it: the capability snapshot's allowlist decides, and the active child runs where
there is no list. The workflow asks with the snapshot in `_last_snapshot`, which nothing
ever assigns, so the active child runs decide whatever the turns of the run have declared
(`verdict_eq`). Everything the workflow decides about a peer's signal is therefore as it
should be exactly when the allowlist says the same as the child runs of the log
(`peer_signals_authorized_iff`). -/
namespace AgentKernel.Workflow
open Lib Dedupe Turns Events Projection Reconcile

/-! ### The peer check -/

def isPeerRunAuthorized (peerRunId : String) (snapshot : CapabilitySnapshot)
    (activeChildRuns : Option (List String) := none) : Bool :=
  if snapshot.peerRunBindings ≠ [] then decide (peerRunId ∈ snapshot.peerRunBindings)
  else
    match activeChildRuns with
    | some (child :: rest) => decide (peerRunId ∈ child :: rest)
    | _ => false

/-- The check of `_handle_signal`, by what `_last_snapshot` reads. -/
def peerAuthorized (lastSnapshot : Option CapabilitySnapshot) (activeChildren : List String)
    (peerRunId : String) : Bool :=
  match lastSnapshot with
  | some snapshot => isPeerRunAuthorized peerRunId snapshot (some activeChildren)
  | none => decide (peerRunId ∈ activeChildren)

/-- Nothing assigns `_last_snapshot`. -/
theorem authorizes_eq_peerAuthorized (a : Actor) {s : ActorSignal} {peer : String}
    (hpeer : s.fromPeerRunId = some peer) :
    a.authorizes s = peerAuthorized none a.activeChildRuns peer := by
  unfold Actor.authorizes Actor.activeChildRuns peerAuthorized
  rw [hpeer]
  cases a.lastProjection with
  | none => simp
  | some projection => rfl

theorem isPeerRunAuthorized_children (peer : String) {snapshot : CapabilitySnapshot}
    (h : snapshot.peerRunBindings = []) (children : List String) :
    isPeerRunAuthorized peer snapshot (some children) = decide (peer ∈ children) := by
  unfold isPeerRunAuthorized
  rw [if_neg (not_not.mpr h)]
  cases children with
  | nil => simp
  | cons child rest => rfl

/-- **The child runs decide as the snapshot does** where it declares no allowlist, and otherwise
for the peers that are in both or in neither. -/
theorem peerAuthorized_eq_iff (snapshot : CapabilitySnapshot) (children : List String) (peer : String) :
    peerAuthorized (some snapshot) children peer = peerAuthorized none children peer ↔
      snapshot.peerRunBindings = [] ∨ (peer ∈ snapshot.peerRunBindings ↔ peer ∈ children) := by
  by_cases hbindings : snapshot.peerRunBindings = []
  · have hsame : peerAuthorized (some snapshot) children peer = peerAuthorized none children peer :=
      isPeerRunAuthorized_children peer hbindings children
    exact ⟨fun _ => .inl hbindings, fun _ => hsame⟩
  · have hlist : peerAuthorized (some snapshot) children peer =
        decide (peer ∈ snapshot.peerRunBindings) := if_pos hbindings
    rw [hlist, peerAuthorized, decide_eq_decide]
    simp only [hbindings, false_or]

/-! ### What is decided about signals -/

/-- The signal that was decided about, and whether it is in the log: a signal that repeats a
token has its event there already. -/
def Note.verdict? : Note → Option (ActorSignal × Bool)
  | .rejected s => some (s, false)
  | .suppressed s => some (s, true)
  | .served (.recording d _) (.ok _) => some (d.signal, true)
  | _ => none

/-- What a step decides. -/
def World.verdicts {σ : Type} (K : Kernel σ) (w : World σ) (l : Label) : List (ActorSignal × Bool) :=
  ((w.step K l).trace.drop w.trace.length).filterMap (fun o => o.what.verdict?)

/-- The signals it decides about. -/
def World.decided {σ : Type} (K : Kernel σ) (w : World σ) (l : Label) : List ActorSignal :=
  (w.verdicts K l).map Prod.fst

/-- The log has an event for the signal, recorded for itself or under its token. -/
def InLog {σ : Type} (w : World σ) (s : ActorSignal) : Prop :=
  ∃ s' ∈ recordedSignals w.trace, s' = s ∨ ∃ token, s.token? = some token ∧ s'.token? = some token

section
variable {σ : Type} {K : Kernel σ} {runId : String} {w : World σ} {i : Nat}

theorem verdicts_of_trace {l : Label} {notes : List Note}
    (h : (w.step K l).trace = w.trace ++ tagged i notes) :
    w.verdicts K l = notes.filterMap Note.verdict? := by
  rw [World.verdicts, h, List.drop_left, tagged, List.filterMap_map]
  rfl

/-- Signals are looked at by the peer check first. -/
theorem handleSignals_verdicts (p : Process σ) (signals : List ActorSignal) :
    ∀ x ∈ (handleSignals p signals).notes.filterMap Note.verdict?, x.2 = p.actor.authorizes x.1 := by
  induction signals with
  | nil => exact fun _ hx => nomatch hx
  | cons s rest ih =>
    intro x hx
    unfold handleSignals at hx
    split at hx
    · cases hx
    · split at hx
      · rename_i hrejected
        rcases List.mem_cons.mp hx with rfl | hx
        · exact (Bool.eq_false_iff.mpr hrejected).symm
        · exact ih x hx
      · rename_i hauthorized
        split at hx
        · rcases List.mem_cons.mp hx with rfl | hx
          · exact (not_not.mp hauthorized).symm
          · exact ih x hx
        · cases hx

theorem processed_verdicts (m : Moment) (p : Process σ) (delivery : Option Delivery) :
    ∀ x ∈ (processed K m p delivery).notes.filterMap Note.verdict?, x.2 = p.actor.authorizes x.1 := by
  intro x hx
  unfold processed at hx
  split at hx
  · cases hx
  · rename_i d
    simp only at hx
    split at hx
    · cases hx
    · exact handleSignals_verdicts p.counted d.rest x hx

/-- The signal is judged as an instance does that shows the child runs of the log. -/
def Judged (runId : String) (sv : Services) (x : ActorSignal × Bool) : Prop :=
  ∃ a : Actor, Aligned runId sv a ∧ x.2 = a.authorizes x.1

theorem enter_judged {sv : Services} {p : Process σ} {entry : Entry} {r : Resumed σ}
    (henter : enter p entry = some r) (h : Aligned runId sv p.actor)
    (hseq : Sequential runId w (.call entry)) :
    ∀ x ∈ r.notes.filterMap Note.verdict?, Judged runId sv x := by
  intro x hx
  cases entry with
  | run input =>
    unfold enter at henter
    simp only at henter
    split at henter
    · cases henter
    · cases henter
      cases hx
  | signal s =>
    unfold enter at henter
    simp only at henter
    split at henter
    · cases henter
      cases hx
    · cases henter
      exact ⟨p.actor, h, handleSignals_verdicts p [s] x hx⟩
  | processActionCommit commit =>
    cases henter
    cases hx
  | write commit => exact hseq.elim
  | reconcileOnce runIds => exact hseq.elim

theorem served_judged {sv : Services} {a : Actor} {st : Stage} {reply : st.Reply}
    (h : Stands runId sv a (.awaiting st)) :
    ∀ x ∈ [Note.served st reply].filterMap Note.verdict?, Judged runId sv x := by
  intro x hx
  obtain ⟨note, hnote, hverdict⟩ := List.mem_filterMap.mp hx
  rw [List.mem_singleton.mp hnote] at hverdict
  cases st with
  | recording d commit =>
    cases reply with
    | error r => cases hverdict
    | ok u =>
      cases hverdict
      cases h with
      | asks hcalm _ => exact hcalm.elim
      | recording hid hauthorized haligned => exact ⟨a, haligned, hauthorized.symm⟩
  | _ => cases hverdict

theorem resume_judged (m : Moment) {sv : Services} {p : Process σ} {st : Stage} {reply : st.Reply}
    (h : Stands runId sv p.actor (.answered st reply)) :
    ∀ x ∈ (resume K m p st reply).notes.filterMap Note.verdict?, Judged runId sv x := by
  intro x hx
  have hcont := resume_continued K m p st reply
  generalize resume K m p st reply = r at hcont hx
  cases h with
  | told hcalm haligned hnone =>
    cases hcont with
    | started _ => cases hnone
    | pinned =>
      exact ⟨_, haligned.of_lastProjection rfl, handleSignals_verdicts
        { p with actor := { p.actor with pendingSignals := [] } } _ x hx⟩
    | returned _ => exact ⟨p.actor, haligned, processed_verdicts m p _ x hx⟩
    | sweeps _ => exact hcalm.elim
    | _ => cases hx
  | projected hcalm hknown hreply hshows =>
    cases hcont with
    | @started input projection _ =>
      obtain rfl : projection = _ := Option.some.inj hreply
      exact ⟨_, .of_projection hknown hshows rfl, handleSignals_verdicts { p with actor := { p.actor with
        lastProjection := some projection, pendingSignals := [] } } _ x hx⟩
    | pinned => cases hreply
    | returned hreturns => cases hreturns <;> cases reply <;> cases hreply
    | sweeps _ => exact hcalm.elim
    | _ => cases hx
  | read hid hauthorized haligned hread =>
    cases hcont with
    | returned hreturns => cases hreturns
    | _ => cases hx
  | recorded hid hbehind =>
    cases hcont with
    | returned hreturns => cases hreturns
    | _ => cases hx

/-- **What a step of a sequence decides.** -/
theorem Attends.judged (h : Attends runId w i) {l : Label} (hseq : Sequential runId w l) :
    ∀ x ∈ w.verdicts K l, Judged runId w.services x := by
  have htaken := step_taken K w l
  generalize hw' : w.step K l = w' at htaken
  intro x hx
  have hnothing : (w.step K l).trace = w.trace → x ∉ w.verdicts K l := by
    intro hsame
    rw [World.verdicts, hsame, List.drop_length]
    exact List.not_mem_nil
  cases htaken with
  | idle => exact absurd hx (hnothing (by rw [hw']))
  | @called entry r henter =>
    rw [verdicts_of_trace (by rw [hw']; rfl)] at hx
    exact enter_judged henter (h.aligned hseq.idle) hseq x hx
  | @served j b st reply services hcall hanswer =>
    obtain ⟨-, hstands⟩ := h.only hcall (by simp [Status.stage?])
    rw [verdicts_of_trace (by rw [hw'])] at hx
    exact served_judged hstands x hx
  | @resumed j m st reply hcall =>
    obtain ⟨-, hstands⟩ := h.only hcall (by simp [Status.stage?])
    rw [verdicts_of_trace (by rw [hw']; rfl)] at hx
    exact resume_judged m hstands x hx
  | startedTurn => exact hseq.elim
  | movedTurn => exact absurd hx (hnothing (by rw [hw']))
  | restarted _ => exact hseq.elim

/-- **The child runs of the log decide about a peer's signal.** -/
theorem verdict_eq (h : Attends runId w i) {l : Label} (hseq : Sequential runId w l)
    {x : ActorSignal × Bool} (hx : x ∈ w.verdicts K l) {peer : String}
    (hpeer : x.1.fromPeerRunId = some peer) :
    x.2 = decide (peer ∈ activeChildRuns w.services.journal runId) := by
  obtain ⟨a, haligned, hverdict⟩ := h.judged hseq x hx
  rw [hverdict, authorizes_eq_peerAuthorized a hpeer, haligned.shown, peerAuthorized]

/-! ### Every signal is decided about -/

/-- A signal in hand that was taken and has no event yet. -/
inductive Undecided (s : ActorSignal) : Status → Prop where
  | asked {d : Delivery} : d.signal = s → Undecided s (.awaiting (.signalled d))
  | read {d : Delivery} {p : RunProjection} : d.signal = s →
    Undecided s (.answered (.signalled d) (.ok p))
  | recording {d : Delivery} {commit : ActionCommit} : d.signal = s →
    Undecided s (.awaiting (.recording d commit))

/-- The call has put the signal into the log, or has found it there, or it has turned it away
and recorded nothing. -/
def DecidedBy (w : World σ) (i : Nat) (s : ActorSignal) : Prop :=
  ((∃ n ∈ historyOf i w.trace, n.verdict? = some (s, true)) ∧ InLog w s) ∨
    ∃ r, w.calls[i]? = some (.ended r) ∧ historyOf i w.trace = [.rejected s]

/-- It has decided, or it still has the signal in hand. -/
def Settling (s : ActorSignal) (i : Nat) (w : World σ) : Prop :=
  DecidedBy w i s ∨ ∃ x, w.calls[i]? = some x ∧ Undecided s x

/-- No call is under way beside the one attended to, no token is recorded twice, and nothing is
noted of calls to come. -/
structure Orderly (runId : String) (w : World σ) : Prop where
  attends : ∃ i, Attends runId w i
  remembered : Remembered w
  unheard : Unheard w

theorem Attends.solo (h : Attends runId w i) : Solo w := by
  intro j k x y d d' token hx hy hd hd' _ _
  have hunder : ∀ {x : Status} {d : Delivery}, x.held? = some d → x.stage? ≠ none := by
    intro x d hd hstage
    rw [Status.held?, hstage] at hd
    cases hd
  exact (h.only hx (hunder hd)).1.trans (h.only hy (hunder hd')).1.symm

theorem orderly_fresh {journal : Journal} (h : journal.eventsOf runId = []) (store : σ) :
    Orderly runId (World.fresh journal store) where
  attends := ⟨0, attends_fresh h store⟩
  remembered := remembered_fresh journal store
  unheard := fun _ _ => rfl

theorem Sequential.ne_restart {l : Label} (h : Sequential runId w l) : l ≠ .restart := by
  rintro rfl
  exact h

theorem Orderly.step (h : Orderly runId w) {l : Label} (hseq : Sequential runId w l)
    (hof : l.OfRun runId) : Orderly runId (w.step K l) where
  attends := by
    obtain ⟨i, hi⟩ := h.attends
    exact hi.step hseq hof
  remembered := by
    obtain ⟨i, hi⟩ := h.attends
    exact h.remembered.step hi.solo hseq.ne_restart
  unheard := unheard_step h.unheard l

theorem recordedSignals_subset {a b : List (Tagged Nat Note)} {s : ActorSignal}
    (h : s ∈ recordedSignals a) : s ∈ recordedSignals (a ++ b) := by
  rw [recordedSignals, List.filterMap_append]
  exact List.mem_append_left _ h

theorem InLog.step {s : ActorSignal} (h : InLog w s) (l : Label) : InLog (w.step K l) s := by
  obtain ⟨new, htrace, -⟩ := step_journal K w l
  obtain ⟨s', hs', hsame⟩ := h
  refine ⟨s', ?_, hsame⟩
  rw [htrace]
  exact recordedSignals_subset hs'

theorem DecidedBy.step {s : ActorSignal} (h : DecidedBy w i s) {l : Label} (hl : l ≠ .restart) :
    DecidedBy (w.step K l) i s := by
  rcases h with ⟨⟨n, hn, hverdict⟩, hlog⟩ | ⟨r, hended, hrejected⟩
  · obtain ⟨new, htrace, -⟩ := step_journal K w l
    refine .inl ⟨⟨n, ?_, hverdict⟩, hlog.step l⟩
    rw [htrace, historyOf_append]
    exact List.mem_append_left _ hn
  · obtain ⟨y, new, hcall, hy, hhistory⟩ := step_call (K := K) hended hl
    cases hcall with
    | still =>
      refine .inr ⟨r, hy, ?_⟩
      rw [hhistory, hrejected]
      rfl

theorem Settling.step {s : ActorSignal} (h : Settling s i w) (horderly : Orderly runId w) {l : Label}
    (hseq : Sequential runId w l) (hof : l.OfRun runId) : Settling s i (w.step K l) := by
  rcases h with hdecided | ⟨x, hx, hundecided⟩
  · exact .inl (hdecided.step hseq.ne_restart)
  obtain ⟨y, new, hcall, hy, hhistory⟩ := step_call (K := K) hx hseq.ne_restart
  obtain ⟨k, hafter⟩ := (horderly.step (K := K) hseq hof).attends
  cases hcall with
  | still => exact .inr ⟨x, hy, hundecided⟩
  | @served st reply b services hanswer =>
    obtain ⟨-, hstands⟩ := hafter.only hy (by simp [Status.stage?])
    cases hundecided with
    | asked hs =>
      refine .inr ⟨_, hy, ?_⟩
      cases hstands with
      | told hcalm | projected hcalm => exact hcalm.elim
      | read => exact .read hs
    | @recording d commit hs =>
      have hreply : (Note.served (.recording d commit) reply).verdict? = some (s, true) ∧
          (Note.served (.recording d commit) reply).recorded? = some s := by
        cases hstands with
        | told hcalm | projected hcalm => exact hcalm.elim
        | recorded => exact ⟨congrArg (fun s => some (s, true)) hs, congrArg some hs⟩
      have hmem : Note.served (.recording d commit) reply ∈ historyOf i (w.step K l).trace := by
        rw [hhistory]
        exact List.mem_append_right _ (List.mem_singleton_self _)
      refine .inl (.inl ⟨⟨_, hmem, hreply.1⟩, s, ?_, .inl rfl⟩)
      exact List.mem_filterMap.mpr ⟨_, mem_historyOf.mp hmem, hreply.2⟩
  | @resumed st reply m =>
    cases hundecided with
    | read hs => exact .inr ⟨_, hy, .recording hs⟩

/-- A token that was seen has an event in the log. -/
theorem Remembered.inLog (h : Remembered w) {s : ActorSignal} (hseen : w.process.actor.hasSeen s = true) :
    InLog w s := by
  obtain ⟨token, htoken, hmem⟩ := hasSeen_iff.mp hseen
  obtain ⟨s', hs'⟩ := List.exists_mem_of_length_pos (by
    rw [(h.seen token hmem).1]
    exact Nat.one_pos)
  obtain ⟨hrecorded, hsame⟩ := List.mem_filter.mp hs'
  exact ⟨s', hrecorded, .inr ⟨token, htoken, of_decide_eq_true hsame⟩⟩

/-- A signal that comes to a started instance is decided about or taken. -/
theorem settling_called {s : ActorSignal} {other : String} (h : Orderly runId w)
    (hrun : w.process.actor.runId? = some other) :
    Settling s w.calls.length (w.step K (.call (.signal s))) := by
  have henter : enter w.process (.signal s) = some (handleSignals w.process [s]) := by
    unfold enter
    simp only [hrun]
  have hlog : InLog w s → InLog (w.step K (.call (.signal s))) s := fun hlog => hlog.step _
  rw [step_entered henter] at hlog ⊢
  have hcall : (w.launch (handleSignals w.process [s])).calls[w.calls.length]? =
      some (handleSignals w.process [s]).next.status := List.getElem?_concat_length
  have hhistory : historyOf w.calls.length (w.launch (handleSignals w.process [s])).trace =
      (handleSignals w.process [s]).notes := by
    show historyOf w.calls.length (w.trace ++ tagged w.calls.length _) = _
    rw [historyOf_self, h.unheard _ (Nat.le_refl _), List.nil_append]
  by_cases hauthorized : w.process.actor.authorizes s = true
  · by_cases hseen : w.process.actor.hasSeen s = true
    · have hnotes : (handleSignals w.process [s]).notes = [.suppressed s] := by
        unfold handleSignals
        simp [hrun, hauthorized, hseen, handleSignals]
      refine .inl (.inl ⟨⟨.suppressed s, ?_, rfl⟩, hlog (h.remembered.inLog hseen)⟩)
      rw [hhistory, hnotes]
      exact List.mem_singleton_self _
    · have hnext : (handleSignals w.process [s]).next = .await (.signalled ⟨other, s, []⟩) := by
        unfold handleSignals
        simp [hrun, hauthorized, hseen]
      rw [hnext] at hcall
      exact .inr ⟨_, hcall, .asked rfl⟩
  · have hturned : (handleSignals w.process [s]).notes = [.rejected s] ∧
        (handleSignals w.process [s]).next = .end (.ok ()) := by
      unfold handleSignals
      simp [hrun, hauthorized, handleSignals]
    rw [hturned.2] at hcall
    exact .inl (.inr ⟨_, hcall, hhistory.trans hturned.1⟩)

/-! ### Along a sequence of calls -/

/-- The snapshot that a step of a turn builds. -/
def World.built? (w : World σ) : Label → Option CapabilitySnapshot
  | .turn l =>
    match w.process.engine.turns[l.turn]? with
    | none => none
    | some t =>
      match t.progress with
      | .snapshot action => (buildSnapshot t l.ports action).toOption
      | _ => none
  | _ => none

end

/-- The world, and the snapshot of the run's most recent turn. -/
structure Overseen (σ : Type) where
  world : World σ
  snapshot : Option CapabilitySnapshot := none

section
variable {σ : Type} (K : Kernel σ) (runId : String)

def Overseen.step (v : Overseen σ) (l : Label) : Overseen σ where
  world := v.world.step K l
  snapshot := (v.world.built? l).or v.snapshot

def Overseen.fresh (journal : Journal) (store : σ) : Overseen σ := { world := World.fresh journal store }

/-- The peer signals that are decided about are in the log exactly if their peers are authorized,
by the snapshot of the most recent turn and the child runs of the log. -/
def PeersAuthorized (v : Overseen σ) (l : Label) : Prop :=
  ∀ x ∈ v.world.verdicts K l, ∀ peer ∈ x.1.fromPeerRunId,
    x.2 = peerAuthorized v.snapshot (activeChildRuns v.world.services.journal runId) peer

/-- An allowlist says of a peer what the child runs say. -/
def AllowlistAgrees (lastSnapshot : Option CapabilitySnapshot) (children : List String) (peer : String) :
    Prop :=
  ∀ snapshot ∈ lastSnapshot,
    snapshot.peerRunBindings = [] ∨ (peer ∈ snapshot.peerRunBindings ↔ peer ∈ children)

/-- The action commits are the run's own, and the allowlist says of every peer that sends a
signal what the child runs say. -/
def PeersAgree (v : Overseen σ) (l : Label) : Prop :=
  l.OfRun runId ∧ ∀ s ∈ v.world.decided K l, ∀ peer ∈ s.fromPeerRunId,
    AllowlistAgrees v.snapshot (activeChildRuns v.world.services.journal runId) peer

/-- The signals that were sent to the started instance and whose calls have ended were decided
about. -/
def SignalsDecided (v : Overseen σ) (labels : List Label) : Prop :=
  ∀ before s after r, labels = before ++ .call (.signal s) :: after →
    (run (Overseen.step K) v before).world.process.actor.runId?.isSome = true →
    (run (Overseen.step K) v labels).world.calls[(run (Overseen.step K) v before).world.calls.length]? =
      some (.ended r) →
    DecidedBy (run (Overseen.step K) v labels).world (run (Overseen.step K) v before).world.calls.length s

instance (v : Overseen σ) (l : Label) : Decidable (PeersAuthorized K runId v l) :=
  inferInstanceAs (Decidable (∀ x ∈ v.world.verdicts K l, ∀ peer ∈ x.1.fromPeerRunId, _ = _))

instance (lastSnapshot : Option CapabilitySnapshot) (children : List String) (peer : String) :
    Decidable (AllowlistAgrees lastSnapshot children peer) :=
  inferInstanceAs (Decidable (∀ snapshot ∈ lastSnapshot, _ ∨ _))

instance (v : Overseen σ) (l : Label) : Decidable (PeersAgree K runId v l) :=
  inferInstanceAs (Decidable (_ ∧ ∀ s ∈ v.world.decided K l, ∀ peer ∈ s.fromPeerRunId,
    AllowlistAgrees _ _ peer))

end

section
variable {σ : Type} {K : Kernel σ} {runId : String}

theorem peerAuthorized_eq_iff_agrees (lastSnapshot : Option CapabilitySnapshot) (children : List String)
    (peer : String) : decide (peer ∈ children) = peerAuthorized lastSnapshot children peer ↔
      AllowlistAgrees lastSnapshot children peer := by
  cases lastSnapshot with
  | none => exact ⟨fun _ _ h => (nomatch h), fun _ => rfl⟩
  | some snapshot =>
    refine (eq_comm.trans (peerAuthorized_eq_iff snapshot children peer)).trans ?_
    constructor
    · intro h other hother
      cases hother
      exact h
    · intro h
      exact h snapshot rfl

/-- **One step.** -/
theorem peersAuthorized_iff {v : Overseen σ} (h : Orderly runId v.world) {l : Label}
    (hseq : Sequential runId v.world l) (hof : l.OfRun runId) :
    PeersAuthorized K runId v l ↔ PeersAgree K runId v l := by
  obtain ⟨i, hi⟩ := h.attends
  have hstep : ∀ x ∈ v.world.verdicts K l, ∀ peer ∈ x.1.fromPeerRunId,
      (x.2 = peerAuthorized v.snapshot (activeChildRuns v.world.services.journal runId) peer ↔
        AllowlistAgrees v.snapshot (activeChildRuns v.world.services.journal runId) peer) := by
    intro x hx peer hpeer
    rw [verdict_eq hi hseq hx hpeer]
    exact peerAuthorized_eq_iff_agrees _ _ _
  constructor
  · intro hall
    refine ⟨hof, fun s hs peer hpeer => ?_⟩
    obtain ⟨x, hx, rfl⟩ := List.mem_map.mp hs
    exact (hstep x hx peer hpeer).mp (hall x hx peer hpeer)
  · intro hall x hx peer hpeer
    exact (hstep x hx peer hpeer).mpr (hall.2 x.1 (List.mem_map_of_mem hx) peer hpeer)

/-- Where the peers are authorized, an allowlist keeps the others out. -/
theorem PeersAuthorized.listed {v : Overseen σ} {l : Label} (h : PeersAuthorized K runId v l)
    {snapshot : CapabilitySnapshot} (hsnapshot : v.snapshot = some snapshot)
    (hbindings : snapshot.peerRunBindings ≠ []) {s : ActorSignal} (hs : (s, true) ∈ v.world.verdicts K l)
    {peer : String} (hpeer : s.fromPeerRunId = some peer) : peer ∈ snapshot.peerRunBindings := by
  have hauthorized := h (s, true) hs peer hpeer
  have hlist : peerAuthorized (some snapshot) (activeChildRuns v.world.services.journal runId) peer =
      decide (peer ∈ snapshot.peerRunBindings) := if_pos hbindings
  rw [hsnapshot, hlist] at hauthorized
  exact of_decide_eq_true hauthorized.symm

/-- A sequence of calls of the run. -/
theorem orderly_run {v : Overseen σ} (h : Orderly runId v.world) {labels : List Label}
    (hseq : Along (Overseen.step K) (fun v l => Sequential runId v.world l ∧ l.OfRun runId) v labels) :
    Orderly runId (run (Overseen.step K) v labels).world :=
  run_invariant_along (I := fun v : Overseen σ => Orderly runId v.world)
    (fun _ _ hl hv => hv.step hl.1 hl.2) h labels hseq

/-- Every signal of a sequence of calls is decided about. -/
theorem signalsDecided_of_sequential {v : Overseen σ} (h : Orderly runId v.world) {labels : List Label}
    (hseq : Along (Overseen.step K) (fun v l => Sequential runId v.world l ∧ l.OfRun runId) v labels) :
    SignalsDecided K v labels := by
  intro before s after r hlabels hstarted hended
  subst hlabels
  obtain ⟨hbefore, hcall, hafter⟩ := along_append.mp hseq
  rw [run_append, run_cons] at hended ⊢
  have horderly := orderly_run h hbefore
  generalize run (Overseen.step K) v before = u at hstarted hended hcall hafter horderly ⊢
  obtain ⟨other, hother⟩ := Option.isSome_iff_exists.mp hstarted
  have hcalled : Orderly runId (u.step K (.call (.signal s))).world :=
    horderly.step (K := K) hcall.1 hcall.2
  have hsettling : Settling s u.world.calls.length (u.step K (.call (.signal s))).world :=
    settling_called (K := K) horderly hother
  have hkept : Orderly runId (run (Overseen.step K) (u.step K (.call (.signal s))) after).world ∧
      Settling s u.world.calls.length
        (run (Overseen.step K) (u.step K (.call (.signal s))) after).world :=
    run_invariant_along (I := fun v : Overseen σ =>
        Orderly runId v.world ∧ Settling s u.world.calls.length v.world)
      (fun _ _ hl hv => ⟨hv.1.step hl.1 hl.2, hv.2.step hv.1 hl.1 hl.2⟩)
      ⟨hcalled, hsettling⟩ after hafter
  rcases hkept.2 with hdecided | ⟨x, hx, hundecided⟩
  · exact hdecided
  · rw [hended] at hx
    cases hx
    cases hundecided

/-- **Peer signals are authorized exactly where the allowlist agrees with the child runs.** One
instance is the only writer of its run's log and handles signals and action commits one after
the other. If every commit is the run's own, and every allowlist a turn has declared says of
the peers that send signals what the child runs of the log say, then every signal that was
handled is decided about, and is in the log exactly if its peer is authorized. With commits of
the run only, the allowlists have to agree. -/
theorem peer_signals_authorized_iff (K : Kernel σ) {runId : String} {journal : Journal}
    (hlog : journal.eventsOf runId = []) (store : σ) {labels : List Label}
    (hseq : Along (Overseen.step K) (fun v l => Sequential runId v.world l)
      (Overseen.fresh journal store) labels) :
    (Along (Overseen.step K) (PeersAgree K runId) (Overseen.fresh journal store) labels →
      Along (Overseen.step K) (PeersAuthorized K runId) (Overseen.fresh journal store) labels ∧
        SignalsDecided K (Overseen.fresh journal store) labels) ∧
    ((∀ l ∈ labels, l.OfRun runId) →
      Along (Overseen.step K) (PeersAuthorized K runId) (Overseen.fresh journal store) labels →
        Along (Overseen.step K) (PeersAgree K runId) (Overseen.fresh journal store) labels) := by
  have hfresh : Orderly runId (Overseen.fresh journal store).world := orderly_fresh hlog store
  have hsame : (∀ l ∈ labels, l.OfRun runId) →
      (Along (Overseen.step K) (PeersAuthorized K runId) (Overseen.fresh journal store) labels ↔
        Along (Overseen.step K) (PeersAgree K runId) (Overseen.fresh journal store) labels) := by
    intro hof
    exact Along.congr_of_invariant (I := fun v : Overseen σ => Orderly runId v.world)
      (fun _ _ hl hv => hv.step hl.1 hl.2) (fun _ _ hl hv => peersAuthorized_iff hv hl.1 hl.2)
      hfresh (hseq.and_of_mem hof)
  refine ⟨fun hagree => ?_, fun hof => (hsame hof).mp⟩
  have hof : ∀ l ∈ labels, l.OfRun runId := (hagree.mono (fun _ _ h => h.1)).forall_mem
  exact ⟨(hsame hof).mpr hagree, signalsDecided_of_sequential hfresh (hseq.and_of_mem hof)⟩

end

/-! ### Samples -/

namespace Sample

/-- A child run is spawned. -/
def spawned : ActorSignal :=
  { signalType := "child_spawned", signalPayload := some [("child_run_id", .str "child")] }

def fromPeer (peer : String) : ActorSignal :=
  { signalType := "go", causedBy := some ("by " ++ peer), fromPeerRunId := some peer }

/-- The ports of a turn whose snapshot declares an allowlist. -/
def declaring (peers : List String) : Ports :=
  { ports Turns.Sample.acknowledged with
    build := fun _ => .ok { Turns.Sample.snapshot with peerRunBindings := peers } }

/-- A run with a child, and a turn with an allowlist. -/
def paired (peers : List String) : List Label :=
  .call (.run { runId := "run" }) :: awaits 0 1 ++ .call (.signal spawned) :: awaits 1 6 ++
    .call (.processActionCommit actionCommit) :: awaits 2 4 ++
    List.replicate 8 (.turn ⟨0, declaring peers⟩) ++ awaits 2 2

/-- Then a peer sends a signal. -/
def signalling (peers : List String) (peer : String) : List Label :=
  paired peers ++ .call (.signal (fromPeer peer)) :: awaits 3 6

end Sample

/-- A child that is on the allowlist gets its signal recorded. -/
theorem listed_child_authorized :
    Along (Overseen.step Sample.kernel) (PeersAuthorized Sample.kernel "run")
      (Overseen.fresh Journal.empty Dict.empty) (Sample.signalling ["child"] "child") ∧
    SignalsDecided Sample.kernel (Overseen.fresh Journal.empty Dict.empty)
      (Sample.signalling ["child"] "child") := by
  have hseq : Along (Overseen.step Sample.kernel) (fun v l => Sequential "run" v.world l)
      (Overseen.fresh Journal.empty Dict.empty) (Sample.signalling ["child"] "child") := by
    decide +kernel
  have hagree : Along (Overseen.step Sample.kernel) (PeersAgree Sample.kernel "run")
      (Overseen.fresh Journal.empty Dict.empty) (Sample.signalling ["child"] "child") := by
    decide +kernel
  exact (peer_signals_authorized_iff Sample.kernel rfl Dict.empty hseq).1 hagree

/-- A child gets its signal recorded although the last turn's allowlist leaves it out. -/
theorem unlisted_child_recorded :
    Along (Overseen.step Sample.kernel) (fun v l => Sequential "run" v.world l)
      (Overseen.fresh Journal.empty Dict.empty) (Sample.signalling ["partner"] "child") ∧
    (∀ l ∈ Sample.signalling ["partner"] "child", l.OfRun "run") ∧
    ¬ Along (Overseen.step Sample.kernel) (PeersAuthorized Sample.kernel "run")
      (Overseen.fresh Journal.empty Dict.empty) (Sample.signalling ["partner"] "child") := by
  decide +kernel

end AgentKernel.Workflow
