import AgentKernel.Workflow.Sessions

/-! A call with nothing else going on, over services that do not fail.

`Ends` says that a call comes to its end within a number of awaits, and what holds then;
it is reasoned about one await at a time (`Ends.await`). A signal that the workflow has not
seen is appended once and remembered, and the rest of its call changes neither
(`signal_recorded`); one it has seen changes nothing (`signal_suppressed`). -/
namespace AgentKernel.Workflow
open Lib Dedupe Turns Events Projection Reconcile

/-! ### A call alone -/

/-- A service that does not fail, outside a Temporal workflow. -/
def calm (now : String) : Await := { moment := { now := now } }

def calms (n : Nat) (now : String) : List Await := List.replicate n (calm now)

section
variable {σ : Type} {K : Kernel σ}

/-- Where a call is, and what it finds. -/
structure At (w : World σ) (i : Nat) (sv : Services) (p : Process σ) (x : Status) : Prop where
  services : w.services = sv
  process : w.process = p
  call : w.calls[i]? = some x

theorem At.go {w : World σ} {i : Nat} {sv sv' : Services} {p : Process σ} {st : Stage} {reply : st.Reply}
    (h : At w i sv p (.awaiting st)) (a : Await)
    (hanswer : sv.answer a.behaviour p.engine.turns st.request = some (reply, sv')) :
    At (run (World.step K) w [.serve i a.behaviour, .resume i a.moment]) i sv'
      (resume K a.moment p st reply).process (resume K a.moment p st reply).next.status := by
  obtain ⟨rfl, rfl, hcall⟩ := h
  have hlt : i < w.calls.length := (List.getElem?_eq_some_iff.mp hcall).1
  have hserve : w.step K (.serve i a.behaviour) =
      { w with
        services := sv'
        calls := w.calls.set i (.answered st reply)
        trace := w.trace ++ tagged i [.served st reply] } := by
    unfold World.step
    simp only [hcall, hanswer]
  have hanswered : (w.calls.set i (.answered st reply))[i]? = some (.answered st reply) :=
    List.getElem?_set_self hlt
  rw [run_cons, run_cons, run_nil, hserve]
  refine ⟨?_, ?_, ?_⟩ <;> simp only [World.step, hanswered, World.follow]
  rw [List.getElem?_set_self (by rw [List.length_set]; exact hlt)]

theorem At.ended {w : World σ} {i : Nat} {sv : Services} {p : Process σ} {r : Except Raised Unit}
    (h : At w i sv p (.ended r)) (ports : List Await) :
    At (run (World.step K) w (awaited i ports)) i sv p (.ended r) := by
  have hstays : ∀ a : Await, run (World.step K) w [.serve i a.behaviour, .resume i a.moment] = w := by
    intro a
    simp only [run_cons, run_nil, World.step, h.call]
  induction ports with
  | nil => exact h
  | cons a rest ih =>
    have hlabels : awaited i (a :: rest) = [.serve i a.behaviour, .resume i a.moment] ++ awaited i rest := rfl
    rw [hlabels, run_append, hstays]
    exact ih

/-- The call ends within so many awaits, and then this holds. -/
def Ends (K : Kernel σ) (now : String) (n : Nat) (sv : Services) (p : Process σ) (x : Status)
    (Q : Services → Process σ → Prop) : Prop :=
  ∀ w i, At w i sv p x → ∃ sv' p', At (run (World.step K) w (awaited i (calms n now))) i sv' p' (.ended (.ok ())) ∧
    Q sv' p'

variable {now : String} {n : Nat} {sv sv' : Services} {p : Process σ} {Q : Services → Process σ → Prop}

theorem Ends.done (hQ : Q sv p) : Ends K now n sv p (.ended (.ok ())) Q :=
  fun _ _ hat => ⟨sv, p, hat.ended _, hQ⟩

/-- One await. -/
theorem Ends.await {st : Stage} {reply : st.Reply}
    (hanswer : sv.answer {} p.engine.turns st.request = some (reply, sv'))
    (hrest : Ends K now n sv' (resume K { now := now } p st reply).process
      (resume K { now := now } p st reply).next.status Q) :
    Ends K now (n + 1) sv p (.awaiting st) Q := by
  intro w i hat
  have hgo := hat.go (K := K) (calm now) hanswer
  have hlabels : awaited i (calms (n + 1) now) =
      [.serve i (calm now).behaviour, .resume i (calm now).moment] ++ awaited i (calms n now) := rfl
  rw [hlabels, run_append]
  exact hrest _ i hgo

/-! ### Services that do not fail -/

/-- The projection service answers, and changes nothing else. -/
theorem project_ok (h : sv.UpToDate) (runId : String) (through : Option Int) :
    ∃ p sv', sv.project runId through = .ok (p, sv') ∧ sv'.UpToDate ∧ sv'.journal = sv.journal := by
  obtain ⟨bound, hbound⟩ := h runId
  have hresumes := project_resumes hbound through
  exact ⟨_, _, hresumes, (h.project hresumes).1, rfl⟩

/-- The requests a signal makes beside its append. -/
def Request.asks : Request → Bool
  | .projection _ | .catchUp _ _ | .readiness _ _ | .seen _ | .mark _ => true
  | _ => false

theorem answer_healthy {b : Behaviour} (hb : b.failure = none) (turns : List Turn) (q : Request) :
    sv.answer b turns q = sv.perform b turns q := by
  unfold Services.answer
  rw [hb]
  split <;> rfl

/-- **Such a request is answered, and leaves the log alone.** -/
theorem asks_answered (h : sv.UpToDate) (b : Behaviour) (hb : b.failure = none) (turns : List Turn)
    {q : Request} (hq : q.asks = true) :
    ∃ reply sv', sv.answer b turns q = some (.ok reply, sv') ∧ sv'.UpToDate ∧ sv'.journal = sv.journal := by
  rw [answer_healthy hb]
  cases q with
  | projection runId =>
    obtain ⟨p, sv', hproject, hdate, hjournal⟩ := project_ok h runId none
    refine ⟨p, sv', ?_, hdate, hjournal⟩
    simp only [Services.perform, hproject]
  | catchUp runId offset =>
    obtain ⟨p, sv', hproject, hdate, hjournal⟩ := project_ok h runId (some offset)
    refine ⟨p, sv', ?_, hdate, hjournal⟩
    simp only [Services.perform, hproject]
  | readiness runId offset =>
    obtain ⟨p, sv', hproject, hdate, hjournal⟩ := project_ok h runId none
    refine ⟨decide (p.projectedOffset ≥ offset), sv', ?_, hdate, hjournal⟩
    simp only [Services.perform, hproject]
  | seen fingerprint => exact ⟨_, sv, rfl, h, rfl⟩
  | mark fingerprint => exact ⟨(), _, rfl, fun runId => h runId, rfl⟩
  | _ => cases hq

theorem append_answer (sv : Services) {b : Behaviour} (hb : b.failure = none) (turns : List Turn)
    (commit : ActionCommit) (hne : commit.events.isEmpty = false) :
    sv.answer b turns (.append commit) = some (.ok (), { sv with journal := sv.journal.append commit }) := by
  rw [answer_healthy hb]
  simp only [Services.perform, hne, Bool.false_eq_true, if_false]

theorem append_answered (h : sv.UpToDate) (b : Behaviour) (hb : b.failure = none) (turns : List Turn)
    {commit : ActionCommit} (hne : commit.events.isEmpty = false) :
    sv.answer b turns (.append commit) = some (.ok (), { sv with journal := sv.journal.append commit }) ∧
      Services.UpToDate { sv with journal := sv.journal.append commit } :=
  ⟨append_answer sv hb turns commit hne, (h.answer (append_answer sv hb turns commit hne)).1⟩

/-! ### A signal -/

/-- The log and the instance once a signal was recorded, but for what only the rest of
its call changes. -/
structure Signalled (j : Journal) (a : Actor) (sv : Services) (p : Process σ) : Prop where
  journal : sv.journal = j
  upToDate : sv.UpToDate
  runId_eq : p.actor.runId = a.runId
  seen : p.actor.seenSignalTokens = a.seenSignalTokens

variable {j : Journal} {a : Actor}

/-- The signal's commit was processed. -/
theorem ends_processed {d : Delivery} (hrest : d.rest = []) (h : Signalled j a sv p) :
    Ends K now n sv (processed K { now := now } p (some d)).process
      (processed K { now := now } p (some d)).next.status (Signalled j a) := by
  have hends : processed K { now := now } p (some d) = staying p d := processed_still K { now := now } p d
  rw [hends, staying, hrest]
  exact .done ⟨h.journal, h.upToDate, h.runId_eq, h.seen⟩

section
variable {q : Processing} {d : Delivery} {projection : RunProjection} (hdelivery : q.delivery = some d)
  (hrest : d.rest = []) (haction : q.commit.action = none)
include hdelivery hrest

/-- The rest of the call once its commit has gone as far as it goes. -/
theorem ends_delivered (h : Signalled j a sv p) :
    Ends K now n sv (processed K { now := now } p q.delivery).process
      (processed K { now := now } p q.delivery).next.status (Signalled j a) := by
  rw [hdelivery]
  exact ends_processed hrest h

include haction in
theorem ends_marking (h : Signalled j a sv p) :
    Ends K now (n + 1) sv p (.awaiting (.marking q projection)) (Signalled j a) := by
  obtain ⟨reply, sv', hmark, hdate, hjournal⟩ := asks_answered h.upToDate {} rfl p.engine.turns
    (show (Stage.marking q projection).request.asks = true from rfl)
  have hkept : Signalled j a sv' p := ⟨hjournal.trans h.journal, hdate, h.runId_eq, h.seen⟩
  have hresume : resume K { now := now } p (.marking q projection) (.ok reply) =
      processed K { now := now } p q.delivery := by
    cases reply
    unfold resume
    simp only [haction]
  refine .await hmark ?_
  rw [hresume]
  exact ends_delivered hdelivery hrest hkept

include haction in
theorem ends_lookingUp (h : Signalled j a sv p) :
    Ends K now (n + 2) sv p (.awaiting (.lookingUp q projection)) (Signalled j a) := by
  obtain ⟨reply, sv', hseen, hdate, hjournal⟩ := asks_answered h.upToDate {} rfl p.engine.turns
    (show (Stage.lookingUp q projection).request.asks = true from rfl)
  have hkept : Signalled j a sv' p := ⟨hjournal.trans h.journal, hdate, h.runId_eq, h.seen⟩
  refine .await hseen ?_
  cases reply with
  | false => exact ends_marking hdelivery hrest haction hkept
  | true => exact ends_delivered hdelivery hrest hkept

include haction in
theorem ends_readying (h : Signalled j a sv p) :
    Ends K now (n + 3) sv p (.awaiting (.readying q projection)) (Signalled j a) := by
  obtain ⟨reply, sv', hready, hdate, hjournal⟩ := asks_answered h.upToDate {} rfl p.engine.turns
    (show (Stage.readying q projection).request.asks = true from rfl)
  have hkept : Signalled j a sv' p := ⟨hjournal.trans h.journal, hdate, h.runId_eq, h.seen⟩
  refine .await hready ?_
  cases reply with
  | true => exact ends_lookingUp hdelivery hrest haction hkept
  | false => exact ends_delivered hdelivery hrest hkept

include haction in
/-- **The commit of a signal is processed to the end**, and nothing is appended for it. -/
theorem ends_catchingUp (h : Signalled j a sv p) :
    Ends K now (n + 4) sv p (.awaiting (.catchingUp q)) (Signalled j a) := by
  obtain ⟨projection, sv', hcatch, hdate, hjournal⟩ := asks_answered h.upToDate {} rfl p.engine.turns
    (show (Stage.catchingUp q).request.asks = true from rfl)
  refine .await hcatch ?_
  exact ends_readying hdelivery hrest haction ⟨hjournal.trans h.journal, hdate, h.runId_eq, h.seen⟩

end

/-- A signal that the workflow has read its projection for. -/
theorem ends_recording {d : Delivery} (hrest : d.rest = []) (hdate : sv.UpToDate) (sequence : Nat)
    (offset : Int) :
    Ends K now (n + 5) sv p
      (.awaiting (.recording d (signalCommit d.runId d.signal sequence offset now)))
      (Signalled (sv.journal.append (signalCommit d.runId d.signal sequence offset now))
        { p.actor with seenSignalTokens := d.signal.token?.toList ++ p.actor.seenSignalTokens }) := by
  obtain ⟨happend, hdate'⟩ := append_answered hdate {} rfl p.engine.turns
    (show (signalCommit d.runId d.signal sequence offset now).events.isEmpty = false from rfl)
  refine .await happend ?_
  exact ends_catchingUp rfl hrest rfl ⟨rfl, hdate', rfl, rfl⟩

/-- A signal in hand. -/
theorem ends_signalled {d : Delivery} (hrest : d.rest = []) (hdate : sv.UpToDate) :
    Ends K now (n + 6) sv p (.awaiting (.signalled d)) (fun sv' p' => ∃ offset,
      Signalled (sv.journal.append (signalCommit d.runId d.signal p.actor.signalSequence offset now))
        { p.actor with seenSignalTokens := d.signal.token?.toList ++ p.actor.seenSignalTokens } sv' p') := by
  obtain ⟨projection, sv', hget, hdate', hjournal⟩ := asks_answered hdate {} rfl p.engine.turns
    (show (Stage.signalled d).request.asks = true from rfl)
  refine .await hget ?_
  intro w i hat
  obtain ⟨sv'', p'', hended, hsignalled⟩ :=
    ends_recording hrest hdate' p.actor.signalSequence (projection.projectedOffset + 1) w i hat
  rw [hjournal] at hsignalled
  exact ⟨sv'', p'', hended, _, hsignalled⟩

/-! ### Whole calls -/

/-- A call is at its first await. -/
theorem at_launched {w : World σ} {entry : Entry} {r : Resumed σ} (henter : enter w.process entry = some r) :
    At (w.step K (.call entry)) w.calls.length w.services r.process r.next.status := by
  have hstep : w.step K (.call entry) = w.launch r := by
    unfold World.step
    simp only [henter]
  rw [hstep]
  refine ⟨rfl, rfl, ?_⟩
  show (w.calls ++ [r.next.status])[w.calls.length]? = _
  rw [List.getElem?_concat_length]

/-- The call ends, and then this holds. -/
theorem Ends.attended {w : World σ} {entry : Entry} {r : Resumed σ} (henter : enter w.process entry = some r)
    (hends : Ends K now n w.services r.process r.next.status Q) :
    Q (attend K w entry (calms n now)).services (attend K w entry (calms n now)).process := by
  obtain ⟨sv', p', hat, hQ⟩ := hends _ _ (at_launched henter)
  have hsame : run (World.step K) (w.step K (.call entry)) (awaited w.calls.length (calms n now)) =
      attend K w entry (calms n now) := rfl
  rw [hsame] at hat
  rw [hat.services, hat.process]
  exact hQ

variable {w : World σ} {runId : String} {s : ActorSignal}

theorem enter_signal (hrun : w.process.actor.runId? = some runId) (hpeer : s.fromPeerRunId = none) :
    enter w.process (.signal s) = some
      (if w.process.actor.hasSeen s = true then
        { process := w.process, next := .end (.ok ()), notes := [.suppressed s] }
      else
        { process := { w.process with actor := { w.process.actor with
            signalSequence := w.process.actor.signalSequence + 1 } }
          next := .await (.signalled ⟨runId, s, []⟩) }) := by
  have hauthorized : w.process.actor.authorizes s = true := by
    unfold Actor.authorizes
    rw [hpeer]
  unfold enter handleSignals
  simp only [hrun, hauthorized, not_true_eq_false, if_false]
  split
  · rfl
  · rfl

/-- **A new signal is recorded once**, and remembered. -/
theorem signal_recorded (hdate : w.services.UpToDate) (hrun : w.process.actor.runId? = some runId)
    (hpeer : s.fromPeerRunId = none) (hnew : w.process.actor.hasSeen s = false) (now : String) :
    ∃ offset, Signalled (w.services.journal.append
        (signalCommit runId s (w.process.actor.signalSequence + 1) offset now))
      { w.process.actor with seenSignalTokens := s.token?.toList ++ w.process.actor.seenSignalTokens }
      (attend K w (.signal s) (calms 6 now)).services
      (attend K w (.signal s) (calms 6 now)).process := by
  have henter := enter_signal hrun hpeer
  rw [hnew, if_neg Bool.false_ne_true] at henter
  have hends : Ends K now 6 w.services
      { w.process with actor := { w.process.actor with
          signalSequence := w.process.actor.signalSequence + 1 } }
      (.awaiting (.signalled ⟨runId, s, []⟩)) (fun sv p => ∃ offset, Signalled
        (w.services.journal.append (signalCommit runId s (w.process.actor.signalSequence + 1) offset now))
        { w.process.actor with seenSignalTokens := s.token?.toList ++ w.process.actor.seenSignalTokens }
        sv p) := by
    intro w' i hat
    obtain ⟨sv, p, hended, offset, h⟩ := ends_signalled rfl hdate w' i hat
    exact ⟨sv, p, hended, offset, h.journal, h.upToDate, h.runId_eq, h.seen⟩
  exact Ends.attended henter hends

/-- **A signal that was seen changes nothing.** -/
theorem signal_suppressed (hdate : w.services.UpToDate) (hrun : w.process.actor.runId? = some runId)
    (hpeer : s.fromPeerRunId = none) (hseen : w.process.actor.hasSeen s = true) (now : String) :
    Signalled w.services.journal w.process.actor (attend K w (.signal s) (calms 6 now)).services
      (attend K w (.signal s) (calms 6 now)).process := by
  have henter := enter_signal hrun hpeer
  rw [hseen, if_pos rfl] at henter
  exact Ends.attended henter (.done ⟨rfl, hdate, rfl, rfl⟩)

/-- A run is started without a trace in the log. -/
theorem run_started (hdate : w.services.UpToDate) (hfresh : w.process.actor = {}) {input : RunInput}
    (hversions : input.policyVersions = none) (hpending : input.pendingSignals = none) (now : String) :
    Signalled w.services.journal { runId := some input.runId }
      (attend K w (.run input) (calms 1 now)).services
      (attend K w (.run input) (calms 1 now)).process := by
  have henter : enter w.process (.run input) = some
      { process := { w.process with actor := w.process.actor.started input }
        next := .await (.starting input) } := by
    unfold enter
    simp only [hfresh]
  apply Ends.attended henter
  obtain ⟨projection, sv', hget, hdate', hjournal⟩ := asks_answered hdate {} rfl w.process.engine.turns
    (show (Stage.starting input).request.asks = true from rfl)
  refine .await hget ?_
  have hresume : resume K { now := now } { w.process with actor := w.process.actor.started input }
      (.starting input) (.ok projection) =
        { process := { w.process with actor := { w.process.actor.started input with
            lastProjection := some projection } }
          next := .end (.ok ()) } := by
    unfold resume replayPending
    simp only [hversions, hpending]
    rw [hfresh]
    rfl
  rw [hresume]
  refine .done ⟨hjournal, hdate', rfl, ?_⟩
  rw [hfresh]
  rfl

/-- Another writer appends a commit. -/
theorem commit_written (hdate : w.services.UpToDate) {commit : ActionCommit}
    (hne : commit.events.isEmpty = false) (now : String) :
    Signalled (w.services.journal.append commit) w.process.actor
      (attend K w (.write commit) (calms 1 now)).services
      (attend K w (.write commit) (calms 1 now)).process := by
  have henter : enter w.process (.write commit) = some
      { process := w.process, next := .await (.writing commit) } := rfl
  apply Ends.attended henter
  obtain ⟨happend, hdate'⟩ := append_answered hdate {} rfl w.process.engine.turns hne
  refine .await happend ?_
  exact .done ⟨rfl, hdate', rfl, rfl⟩

end
end AgentKernel.Workflow
