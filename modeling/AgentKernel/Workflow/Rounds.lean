import AgentKernel.Workflow.Recovery

/-! Recovery rounds among other writers.

The read-only check of the recovery gate compares the last offset of the run before and
after `decide`, so it cannot tell what the gate appends from what anyone else does. A
disturbed first round is repeated by the handler; a disturbed round of the handler is the
end of the call, without a recovery fact. `Rounds` follows one call's readings of the
log, and `recovery_lost_iff` says that the fact is there exactly when nobody else wrote to
the run between the last two of them. -/
namespace AgentKernel.Workflow
open Lib Dedupe Turns Events Projection Reconcile

/-! ### What a turn asks for -/

/-- The turn raised, or it ended in need of recovery. -/
def Note.asks : Note → Bool
  | .served (.turning _ _) (.ok result) => decide (result.outcomeKind = .recoveryPending)
  | .served (.turning _ _) (.error _) => true
  | _ => false

/-- The turn raised what is no `Exception`. -/
def Note.exits : Note → Bool
  | .served (.turning _ _) (.error (.exit _)) => true
  | _ => false

/-- What a call's history says of its recovery. -/
structure Asked where
  facts : Nat := 0
  asks : Bool := false
  exits : Bool := false
  deriving DecidableEq

def Asked.see (t : Asked) (n : Note) : Asked :=
  { facts := t.facts + n.recovers.toNat
    asks := t.asks || n.asks
    exits := t.exits || n.exits }

def askedOf (history : List Note) : Asked := run Asked.see {} history

theorem askedOf_append (h new : List Note) : askedOf (h ++ new) = run Asked.see (askedOf h) new :=
  run_append _ _ _ _

theorem Asked.see_quiet {n : Note} (hrecovers : n.recovers = false) (hasks : n.asks = false)
    (hexits : n.exits = false) (t : Asked) : t.see n = t := by
  unfold Asked.see
  rw [hrecovers, hasks, hexits, Bool.or_false, Bool.or_false]
  rfl

theorem Asked.see_ofCall {n : Note} (h : n.ofCall = true) (t : Asked) : t.see n = t := by
  apply Asked.see_quiet
  all_goals
    cases n with
    | served st reply => cases h
    | _ => rfl

theorem asked_ofCall {notes : List Note} (h : ∀ n ∈ notes, n.ofCall = true) (t : Asked) :
    run Asked.see t notes = t :=
  run_invariant_of (I := fun u => u = t) (A := fun n : Note => n.ofCall = true)
    (fun u n hn hu => by rw [hu, Asked.see_ofCall hn]) rfl notes h

theorem run_asked (history : List Note) (t : Asked) :
    run Asked.see t history =
      { facts := t.facts + history.countP Note.recovers
        asks := t.asks || history.any Note.asks
        exits := t.exits || history.any Note.exits } := by
  induction history generalizing t with
  | nil => simp
  | cons n rest ih =>
    rw [run_cons, ih, List.countP_cons, List.any_cons, List.any_cons]
    simp only [Asked.see, Bool.or_assoc, Asked.mk.injEq, and_true]
    cases n.recovers
    · simp
    · simp only [Bool.toNat_true, if_true]
      omega

theorem askedOf_eq (history : List Note) :
    askedOf history =
      { facts := history.countP Note.recovers
        asks := history.any Note.asks
        exits := history.any Note.exits } := by
  rw [askedOf, run_asked]
  simp

/-! ### The rounds of a call -/

/-- The readings of the log around `decide`: whether something was appended since the
round that is open began, and whether something was in the last that is over. -/
structure Rounds where
  current : Option Bool := none
  last : Option Bool := none
  deriving DecidableEq

def Rounds.written (r : Rounds) : Rounds := { r with current := r.current.map (fun _ => true) }

/-- What one entry of the trace is for the rounds of call `i`. -/
def Rounds.see (i : Nat) (runId : String) (r : Rounds) (o : Tagged Nat Note) : Rounds :=
  match o.what with
  | .served (.gateBefore _ _) (.ok _) => if o.who = i then { r with current := some false } else r
  | .served (.gateAfter _ _ _ _) (.ok _) =>
    if o.who = i then { current := none, last := r.current } else r
  | note =>
    match note.appended? with
    | some commit => if commit.runId = runId then r.written else r
    | none => r

def roundsOf (i : Nat) (runId : String) (trace : List (Tagged Nat Note)) : Rounds :=
  run (Rounds.see i runId) {} trace

/-- Whether another writer came between the last two readings of the log. -/
def lastRoundDisturbed (i : Nat) (runId : String) (trace : List (Tagged Nat Note)) : Bool :=
  (roundsOf i runId trace).last = some true

theorem roundsOf_append (i : Nat) (runId : String) (trace new : List (Tagged Nat Note)) :
    roundsOf i runId (trace ++ new) = run (Rounds.see i runId) (roundsOf i runId trace) new :=
  run_append _ _ _ _

section
variable {i j : Nat} {runId : String} {r : Rounds}

theorem Rounds.see_ofCall {n : Note} (h : n.ofCall = true) : r.see i runId ⟨j, n⟩ = r := by
  cases n with
  | served st reply => cases h
  | _ => rfl

theorem rounds_ofCall {notes : List Note} (h : ∀ n ∈ notes, n.ofCall = true) :
    run (Rounds.see i runId) r (tagged j notes) = r := by
  refine run_invariant_of (I := fun s => s = r) (A := fun o : Tagged Nat Note => o.what.ofCall = true)
    ?_ rfl _ ?_
  · intro s o ho hs
    rw [hs]
    exact Rounds.see_ofCall ho
  · intro o ho
    exact h _ (who_of_mem_tagged ho).2

/-- What the others do to a run's last offset and to the rounds of a call. -/
inductive Shift (offset : Int) (r : Rounds) : Int → Rounds → Prop where
  | same : Shift offset r offset r
  | written {offset' : Int} : offset < offset' → Shift offset r offset' r.written

theorem Rounds.see_appended {n : Note} {commit : ActionCommit} (h : n.appended? = some commit) :
    r.see i runId ⟨j, n⟩ = if commit.runId = runId then r.written else r := by
  unfold Rounds.see
  split
  · rename_i heq
    cases heq
    cases h
  · rename_i heq
    cases heq
    cases h
  · simp only [h]

theorem Rounds.see_quiet {n : Note} (h : n.appended? = none) (hij : j ≠ i) : r.see i runId ⟨j, n⟩ = r := by
  unfold Rounds.see
  split
  · rw [if_neg hij]
  · rw [if_neg hij]
  · simp only [h]

/-- Only commits with events are taken. -/
theorem appended_events {sv sv' : Services} {b : Behaviour} {turns : List Turn} {q : Request}
    {reply : Except Raised q.Answer} {commit : ActionCommit}
    (hanswer : sv.answer b turns q = some (reply, sv')) (h : q.appended? reply = some commit) :
    commit.events.isEmpty = false := by
  obtain ⟨rfl, u, rfl⟩ := appended_ok h
  rcases answer_cases hanswer with hp | ⟨⟨e, he⟩, -⟩
  · unfold Services.perform at hp
    simp only at hp
    split at hp
    · cases hp
    · rename_i hne
      exact eq_false_of_ne_true hne
  · cases he

theorem lastOffset_grows (j : Journal) {commit : ActionCommit} (hne : commit.events.isEmpty = false) :
    j.lastOffset commit.runId < (j.append commit).lastOffset commit.runId := by
  have hpos : 0 < commit.events.length := by
    apply List.length_pos_iff.mpr
    intro hnil
    rw [hnil] at hne
    cases hne
  rw [Journal.lastOffset_append, if_pos rfl]
  omega

/-- **What a service does for another call.** -/
theorem served_shift {sv sv' : Services} {b : Behaviour} {turns : List Turn} {st : Stage} {reply : st.Reply}
    (hanswer : sv.answer b turns st.request = some (reply, sv')) (hij : j ≠ i) :
    Shift (sv.journal.lastOffset runId) r (sv'.journal.lastOffset runId)
      (r.see i runId ⟨j, .served st reply⟩) := by
  have hjournal := answer_journal hanswer
  cases happended : (Note.served st reply).appended? with
  | none =>
    have hnone : st.request.appended? reply = none := happended
    rw [hjournal, hnone, Rounds.see_quiet happended hij]
    exact .same
  | some commit =>
    have hsome : st.request.appended? reply = some commit := happended
    rw [hjournal, hsome, Rounds.see_appended happended]
    show Shift _ r ((sv.journal.append commit).lastOffset runId) _
    split
    · rename_i hrun
      subst hrun
      exact .written (lastOffset_grows _ (appended_events hanswer hsome))
    · rename_i hrun
      rw [Journal.lastOffset_append, if_neg (Ne.symm hrun), Int.add_zero]
      exact .same

/-- The offset that is read is that of the last event. -/
theorem latestRunOffset_eq (j : Journal) (runId : String) :
    Services.latestRunOffset (j.load runId 0) = j.lastOffset runId := by
  rw [j.load_zero, ← j.lastIndex_eventsOf runId]
  have hindexed := j.indexed runId
  cases hevents : j.eventsOf runId with
  | nil => rfl
  | cons event rest =>
    rw [hevents] at hindexed
    obtain ⟨hfirst, hrest⟩ := le_foldl_max rest event.commitOffset
    apply Int.le_antisymm
    · exact foldl_max_le (hindexed.le_lastIndex List.mem_cons_self)
        (fun e he => hindexed.le_lastIndex (List.mem_cons_of_mem _ he))
    · obtain ⟨last, hlast⟩ := Option.isSome_iff_exists.mp
        (show (event :: rest).getLast?.isSome = true by simp)
      unfold lastIndex
      rw [hlast]
      rcases List.mem_cons.mp (List.mem_of_getLast? hlast) with rfl | hmem
      · exact hfirst
      · exact hrest last hmem

/-! ### Where a call stands -/

/-- A commit of the run, handed in directly. -/
def Processing.Of (q : Processing) (runId : String) : Prop := q.commit.runId = runId ∧ q.delivery = none

/-- No recovery fact yet. -/
def Asked.Waits (t : Asked) : Prop := t.facts = 0 ∧ t.exits = false

def Asked.Returned (t : Asked) (result : TurnResult) : Prop :=
  t.Waits ∧ (t.asks = true → result.outcomeKind = .recoveryPending)

/-- The round that is open began at this offset. -/
structure Rounds.Open (r : Rounds) (offset before : Int) : Prop where
  current : r.current = some (logMoved before offset)
  le : before ≤ offset
  last : r.last ≠ some false

/-- What a call of a commit of a run has come to when it awaits a stage. -/
def Stage.Rounded (runId : String) (offset : Int) (t : Asked) (r : Rounds) : Stage → Prop
  | .catchingUp q | .readying q _ | .lookingUp q _ | .marking q _ => q.Of runId ∧ t = {} ∧ r = {}
  | .turning a _ => a.processing.Of runId ∧ t = {} ∧ r = {}
  | .intending a result _ => a.processing.Of runId ∧ t.Returned result ∧ r = {}
  | .recordingOutcome a result commit =>
    a.processing.Of runId ∧ commit.events.isEmpty = false ∧ t.Returned result ∧ r = {}
  | .gateBefore a _ => a.processing.Of runId ∧ t.Waits ∧ r.current = none ∧ r.last ≠ some false
  | .deciding a _ before | .gateAfter a _ before _ => a.processing.Of runId ∧ t.Waits ∧ r.Open offset before
  | .recovering a _ _ commit =>
    a.processing.Of runId ∧ commit.events.isEmpty = false ∧ t.Waits ∧ r = { last := some false }
  | .settling a _ _ => a.processing.Of runId ∧ t.facts = 1 ∧ t.exits = false ∧ r = { last := some false }
  | _ => False

/-- What it has come to with an answer. -/
def Stage.Heard (runId : String) (offset : Int) (t : Asked) (r : Rounds) : (st : Stage) → st.Reply → Prop
  | .turning a k, reply =>
    a.processing.Of runId ∧ t = ({} : Asked).see (.served (.turning a k) reply) ∧ r = {}
  | .gateBefore a _, .ok before => a.processing.Of runId ∧ t.Waits ∧ r.Open offset before
  | .gateAfter a _ before _, .ok after =>
    a.processing.Of runId ∧ t.Waits ∧ r = { last := some (logMoved before after) }
  | .recovering a _ _ _, .ok _ =>
    a.processing.Of runId ∧ t.facts = 1 ∧ t.exits = false ∧ r = { last := some false }
  | .catchingUp q, _ | .readying q _, _ | .lookingUp q _, _ | .marking q _, _ =>
    q.Of runId ∧ t = {} ∧ r = {}
  | st, .ok _ => st.Rounded runId offset t r
  | _, .error _ => False

/-- A call that has ended. -/
def Asked.Final (t : Asked) (r : Rounds) : Prop :=
  t.asks = true → (t.facts = 1 ↔ t.exits = false ∧ r.last ≠ some true)

def Status.Rounded (runId : String) (offset : Int) (t : Asked) (r : Rounds) : Status → Prop
  | .awaiting st => st.Rounded runId offset t r
  | .answered st reply => st.Heard runId offset t r reply
  | .ended _ => t.Final r

variable {offset offset' : Int} {r' : Rounds} {t : Asked}

theorem Rounds.Open.shift {before : Int} (h : r.Open offset before) (hshift : Shift offset r offset' r') :
    r'.Open offset' before := by
  obtain ⟨hcurrent, hle, hlast⟩ := h
  cases hshift with
  | same => exact ⟨hcurrent, hle, hlast⟩
  | written hlt =>
    have hmoved : logMoved before offset' = true := by
      apply decide_eq_true
      omega
    refine ⟨?_, by omega, hlast⟩
    rw [hmoved, Rounds.written, hcurrent]
    rfl

theorem Shift.closed (hshift : Shift offset r offset' r') (h : r.current = none) : r' = r := by
  cases hshift with
  | same => rfl
  | written hlt =>
    obtain ⟨current, last⟩ := r
    cases h
    rfl

/-- **Others leave a call where it is.** -/
theorem Stage.Rounded.shift {st : Stage} (h : st.Rounded runId offset t r)
    (hshift : Shift offset r offset' r') : st.Rounded runId offset' t r' := by
  have hclosed := hshift.closed
  cases st with
  | deciding a round before =>
    obtain ⟨hof, hwaits, hopen⟩ := h
    exact ⟨hof, hwaits, hopen.shift hshift⟩
  | gateAfter a round before decision =>
    obtain ⟨hof, hwaits, hopen⟩ := h
    exact ⟨hof, hwaits, hopen.shift hshift⟩
  | catchingUp q | readying q projection | lookingUp q projection | marking q projection
  | turning a index | intending a result record =>
    obtain ⟨hof, ht, rfl⟩ := h
    exact ⟨hof, ht, hclosed rfl⟩
  | recordingOutcome a result commit =>
    obtain ⟨hof, hne, ht, rfl⟩ := h
    exact ⟨hof, hne, ht, hclosed rfl⟩
  | gateBefore a round =>
    obtain ⟨hof, ht, hcurrent, hlast⟩ := h
    rw [hclosed hcurrent]
    exact ⟨hof, ht, hcurrent, hlast⟩
  | recovering a round decision commit =>
    obtain ⟨hof, hne, ht, rfl⟩ := h
    exact ⟨hof, hne, ht, hclosed rfl⟩
  | settling a round outcome =>
    obtain ⟨hof, hfacts, hexits, rfl⟩ := h
    exact ⟨hof, hfacts, hexits, hclosed rfl⟩
  | _ => cases h

/-- An answered call is told nothing new by what others do. -/
theorem Stage.Heard.shift {st : Stage} {reply : st.Reply} (h : st.Heard runId offset t r reply)
    (hshift : Shift offset r offset' r') : st.Heard runId offset' t r' reply := by
  have hclosed := hshift.closed
  cases st with
  | catchingUp q | readying q projection | lookingUp q projection | marking q projection
  | turning a index =>
    obtain ⟨hof, ht, rfl⟩ := h
    exact ⟨hof, ht, hclosed rfl⟩
  | gateBefore a round =>
    cases reply with
    | error e => cases h
    | ok before =>
      obtain ⟨hof, hwaits, hopen⟩ := h
      exact ⟨hof, hwaits, hopen.shift hshift⟩
  | gateAfter a round before decision =>
    cases reply with
    | error e => cases h
    | ok after =>
      obtain ⟨hof, hwaits, rfl⟩ := h
      exact ⟨hof, hwaits, hclosed rfl⟩
  | recovering a round decision commit =>
    cases reply with
    | error e => cases h
    | ok u =>
      obtain ⟨hof, hfacts, hexits, rfl⟩ := h
      exact ⟨hof, hfacts, hexits, hclosed rfl⟩
  | _ =>
    cases reply with
    | error e => cases h
    | ok u =>
      unfold Stage.Heard at h ⊢
      exact Stage.Rounded.shift h hshift

theorem Asked.Final.shift (h : t.Final r) (hshift : Shift offset r offset' r') : t.Final r' := by
  cases hshift with
  | same => exact h
  | written hlt => exact h

theorem Status.Rounded.shift {x : Status} (h : x.Rounded runId offset t r)
    (hshift : Shift offset r offset' r') : x.Rounded runId offset' t r' := by
  cases x with
  | awaiting st => exact Stage.Rounded.shift h hshift
  | answered st reply => exact Stage.Heard.shift h hshift
  | ended e => exact Asked.Final.shift h hshift

/-! ### The call itself -/

theorem perform_healthy {sv sv' : Services} {b : Behaviour} (hb : b.failure = none) {turns : List Turn}
    {q : Request} {reply : Except Raised q.Answer} (hanswer : sv.answer b turns q = some (reply, sv')) :
    sv.perform b turns q = some (reply, sv') := by
  rcases answer_cases hanswer with hp | ⟨⟨e, rfl⟩, rfl⟩
  · exact hp
  · unfold Services.answer at hanswer
    simp only [hb] at hanswer
    split at hanswer <;> exact hanswer

theorem append_healthy {sv sv' : Services} {b : Behaviour} (hb : b.failure = none) {turns : List Turn}
    {commit : ActionCommit} (hne : commit.events.isEmpty = false) {reply : Except Raised Unit}
    (hanswer : sv.answer b turns (.append commit) = some (reply, sv')) : reply = .ok () := by
  have hperform := perform_healthy hb hanswer
  simp only [Services.perform, hne, Bool.false_eq_true, if_false] at hperform
  cases hperform
  rfl

/-- Outside the two readings, the call's own answers leave its rounds alone, as long as
none is open. -/
theorem Rounds.see_own {n : Note} (hcurrent : r.current = none)
    (hbefore : ∀ a round before, n ≠ .served (.gateBefore a round) (.ok before))
    (hafter : ∀ a round before decision after, n ≠ .served (.gateAfter a round before decision) (.ok after)) :
    r.see i runId ⟨i, n⟩ = r := by
  have hwritten : r.written = r := by
    obtain ⟨current, last⟩ := r
    cases hcurrent
    rfl
  unfold Rounds.see
  split
  · rename_i heq
    exact absurd heq (hbefore _ _ _)
  · rename_i heq
    exact absurd heq (hafter _ _ _ _ _)
  · split
    · rw [hwritten]
      split <;> rfl
    · rfl

/-- **A service that does not fail answers the call.** -/
theorem served_rounded {sv sv' : Services} {b : Behaviour} (hb : b.failure = none) {turns : List Turn}
    {st : Stage} {reply : st.Reply} (hanswer : sv.answer b turns st.request = some (reply, sv'))
    (h : st.Rounded runId (sv.journal.lastOffset runId) t r) :
    st.Heard runId (sv'.journal.lastOffset runId) (t.see (.served st reply))
      (r.see i runId ⟨i, .served st reply⟩) reply := by
  have hperform := perform_healthy hb hanswer
  cases st with
  | catchingUp q | readying q projection | lookingUp q projection | marking q projection =>
    obtain ⟨hof, rfl, rfl⟩ := h
    refine ⟨hof, rfl, Rounds.see_own rfl ?_ ?_⟩ <;> intros <;> nofun
  | turning a index =>
    obtain ⟨hof, rfl, rfl⟩ := h
    refine ⟨hof, rfl, Rounds.see_own rfl ?_ ?_⟩ <;> intros <;> nofun
  | intending a result record =>
    cases hperform
    obtain ⟨hof, ht, rfl⟩ := h
    rw [Asked.see_quiet rfl rfl rfl]
    refine ⟨hof, ht, Rounds.see_own rfl ?_ ?_⟩ <;> intros <;> nofun
  | recordingOutcome a result commit =>
    obtain ⟨hof, hne, ht, rfl⟩ := h
    obtain rfl := append_healthy hb hne hanswer
    rw [Asked.see_quiet rfl rfl rfl]
    refine ⟨hof, hne, ht, Rounds.see_own rfl ?_ ?_⟩ <;> intros <;> nofun
  | gateBefore a round =>
    cases hperform
    obtain ⟨hof, ht, hcurrent, hlast⟩ := h
    have hread := latestRunOffset_eq sv.journal a.processing.commit.runId
    rw [hof.1] at hread
    rw [Asked.see_quiet rfl rfl rfl]
    refine ⟨hof, ht, ?_⟩
    show Rounds.Open (if i = i then { r with current := some false } else r)
      (sv.journal.lastOffset runId) (Services.latestRunOffset (sv.journal.load a.processing.commit.runId 0))
    rw [if_pos rfl, hof.1, hread]
    refine ⟨?_, Int.le_refl _, hlast⟩
    show some false = some (logMoved _ _)
    unfold logMoved
    rw [decide_eq_false (not_not.mpr rfl)]
  | deciding a round before =>
    cases hperform
    rw [Asked.see_quiet rfl rfl rfl]
    exact h
  | gateAfter a round before decision =>
    cases hperform
    obtain ⟨hof, ht, hopen⟩ := h
    have hread := latestRunOffset_eq sv.journal a.processing.commit.runId
    rw [hof.1] at hread
    rw [Asked.see_quiet rfl rfl rfl]
    refine ⟨hof, ht, ?_⟩
    show (if i = i then { current := none, last := r.current } else r) = Rounds.mk none (some
      (logMoved before (Services.latestRunOffset (sv.journal.load a.processing.commit.runId 0))))
    rw [if_pos rfl, hof.1, hread, hopen.current]
  | recovering a round decision commit =>
    obtain ⟨hof, hne, ⟨hfacts, hexits⟩, rfl⟩ := h
    obtain rfl := append_healthy hb hne hanswer
    refine ⟨hof, ?_, ?_, Rounds.see_own rfl ?_ ?_⟩
    · show t.facts + 1 = 1
      rw [hfacts]
    · show (t.exits || false) = false
      rw [hexits]
      rfl
    · intros
      nofun
    · intros
      nofun
  | settling a round outcome =>
    cases hperform
    obtain ⟨hof, hfacts, hexits, rfl⟩ := h
    rw [Asked.see_quiet rfl rfl rfl]
    refine ⟨hof, hfacts, hexits, Rounds.see_own rfl ?_ ?_⟩ <;> intros <;> nofun
  | _ => cases h

theorem final_unasked (h : t.asks = false) : t.Final r := by
  intro hasks
  rw [h] at hasks
  cases hasks

/-- The round was not disturbed, and its fact is there. -/
theorem final_recovered (hfacts : t.facts = 1) (hexits : t.exits = false) :
    t.Final { last := some false } := by
  intro _
  exact ⟨fun _ => ⟨hexits, nofun⟩, fun _ => hfacts⟩

theorem final_disturbed (hfacts : t.facts = 0) : t.Final { last := some true } := by
  intro _
  constructor
  · intro h
    rw [hfacts] at h
    cases h
  · intro h
    exact absurd rfl h.2

section
variable {σ : Type} {K : Kernel σ} {m : Moment} {p : Process σ} {a : Acting} {q : Processing}

/-- `process_action_commit` returns. -/
theorem rounded_processed (hof : q.Of runId) (h : t.Final r) :
    (processed K m p q.delivery).next.status.Rounded runId offset t r := by
  rw [hof.2]
  exact h

/-- What the handler starts from. -/
theorem rounded_handler (hof : a.processing.Of runId) (hwaits : t.Waits) (hcurrent : r.current = none)
    (hlast : r.last ≠ some false) (e : PyError) :
    (actionFailed p a (.exception e)).next.status.Rounded runId offset t r :=
  ⟨hof, hwaits, hcurrent, hlast⟩

theorem rounded_done {round : Round} (hof : a.processing.Of runId) (h : t.Final r) :
    (roundDone K m p a round).next.status.Rounded runId offset t r := by
  cases round with
  | pending result => exact rounded_processed hof h
  | failed err => exact h

/-- **Continuing the call.** -/
theorem resume_rounded {st : Stage} {reply : st.Reply} (h : st.Heard runId offset t r reply) :
    (resume K m p st reply).next.status.Rounded runId offset t r := by
  cases st with
  | starting input | pinning input commit | signalled d | recording d commit | writing commit
  | sweeping id rest =>
    cases reply with
    | error e => cases h
    | ok u => cases h
  | catchingUp q =>
    cases reply with
    | error e =>
      obtain ⟨hof, rfl, rfl⟩ := h
      exact final_unasked rfl
    | ok projection => exact h
  | readying q projection =>
    obtain ⟨hof, rfl, rfl⟩ := h
    cases reply with
    | error e => exact final_unasked rfl
    | ok ready =>
      cases ready with
      | true => exact ⟨hof, rfl, rfl⟩
      | false => exact rounded_processed hof (final_unasked rfl)
  | lookingUp q projection =>
    obtain ⟨hof, rfl, rfl⟩ := h
    cases reply with
    | error e => exact final_unasked rfl
    | ok seen =>
      cases seen with
      | true => exact rounded_processed hof (final_unasked rfl)
      | false => exact ⟨hof, rfl, rfl⟩
  | marking q projection =>
    obtain ⟨hof, rfl, rfl⟩ := h
    cases reply with
    | error e => exact final_unasked rfl
    | ok u =>
      cases u
      unfold resume
      simp only
      split
      · exact rounded_processed hof (final_unasked rfl)
      · exact ⟨hof, rfl, rfl⟩
  | turning a index =>
    obtain ⟨hof, rfl, rfl⟩ := h
    cases reply with
    | error e =>
      cases e with
      | exception e => exact rounded_handler hof ⟨rfl, rfl⟩ rfl (by decide) e
      | exit name =>
        intro _
        exact ⟨nofun, nofun⟩
    | ok result =>
      have hreturned : (({} : Asked).see (.served (.turning a index) (.ok result))).Returned result :=
        ⟨⟨rfl, rfl⟩, of_decide_eq_true⟩
      show (turnReturned K m p a result).next.status.Rounded runId offset _ _
      unfold turnReturned
      split
      · exact ⟨hof, rfl, hreturned, rfl⟩
      · split
        · exact ⟨hof, hreturned, rfl⟩
        · exact ⟨hof, rfl, hreturned, rfl⟩
  | intending a result record =>
    cases reply with
    | error e => cases h
    | ok u =>
      obtain ⟨hof, hreturned, rfl⟩ := h
      exact ⟨hof, rfl, hreturned, rfl⟩
  | recordingOutcome a result commit =>
    cases reply with
    | error e => cases h
    | ok u =>
      obtain ⟨hof, hne, ⟨hwaits, hasks⟩, rfl⟩ := h
      cases u
      unfold resume
      simp only
      split
      · exact rounded_handler hof hwaits rfl (by decide) _
      · split
        · exact ⟨hof, hwaits, rfl, by decide⟩
        · rename_i hkind
          apply rounded_processed hof
          intro h
          exact absurd (hasks h) hkind
  | gateBefore a round =>
    cases reply with
    | error e => cases h
    | ok before => exact h
  | deciding a round before =>
    cases reply with
    | error e => cases h
    | ok decision => exact h
  | gateAfter a round before decision =>
    cases reply with
    | error e => cases h
    | ok after =>
      obtain ⟨hof, hwaits, rfl⟩ := h
      unfold resume
      cases hmoved : logMoved before after with
      | false =>
        simp only [readOnly_of_not_moved hmoved, recoveryEventType_allowed]
        exact ⟨hof, rfl, hwaits, rfl⟩
      | true =>
        obtain ⟨e, he⟩ := not_readOnly_of_moved hmoved
        simp only [he]
        cases round with
        | pending result => exact rounded_handler hof hwaits rfl (by decide) e
        | failed err => exact final_disturbed hwaits.1
  | recovering a round decision commit =>
    cases reply with
    | error e => cases h
    | ok u =>
      obtain ⟨hof, hfacts, hexits, rfl⟩ := h
      cases u
      unfold resume
      simp only
      split
      · exact ⟨hof, hfacts, hexits, rfl⟩
      · exact rounded_done hof (final_recovered hfacts hexits)
  | settling a round outcome =>
    cases reply with
    | error e => cases h
    | ok u =>
      obtain ⟨hof, hfacts, hexits, rfl⟩ := h
      exact rounded_done hof (final_recovered hfacts hexits)

end

/-! ### Whole calls -/

/-- Nothing but a turn's ports fails. -/
def Label.healthy : Label → Bool
  | .serve _ b => b.failure.isNone
  | _ => true

/-- A call stands where its history and the log say. -/
def Rounding {σ : Type} (i : Nat) (runId : String) (w : World σ) : Prop :=
  ∃ x, w.calls[i]? = some x ∧
    x.Rounded runId (w.services.journal.lastOffset runId) (askedOf (historyOf i w.trace))
      (roundsOf i runId w.trace)

section
variable {σ : Type} {K : Kernel σ} {w : World σ}

/-- What another call does by itself. -/
theorem Rounding.aside {calls : List Status} {process : Process σ} {notes : List Note}
    (h : Rounding i runId w) (hij : i ≠ j) (hcalls : calls[i]? = w.calls[i]?)
    (hnotes : ∀ n ∈ notes, n.ofCall = true) :
    Rounding i runId { w with process := process, calls := calls, trace := w.trace ++ tagged j notes } := by
  obtain ⟨x, hx, hrounded⟩ := h
  refine ⟨x, hcalls.trans hx, ?_⟩
  show x.Rounded runId (w.services.journal.lastOffset runId) (askedOf (historyOf i (w.trace ++ _)))
    (roundsOf i runId (w.trace ++ _))
  rw [historyOf_other hij, List.append_nil, roundsOf_append, rounds_ofCall hnotes]
  exact hrounded

/-- **Every step leaves the call where it is, or moves it along.** -/
theorem rounding_step {l : Label} (hl : l ≠ .restart) (hhealthy : l.healthy = true)
    (h : Rounding i runId w) : Rounding i runId (w.step K l) := by
  have htaken := step_taken K w l
  generalize w.step K l = w' at htaken
  obtain ⟨x, hx, hrounded⟩ := h
  obtain ⟨hlt, -⟩ := List.getElem?_eq_some_iff.mp hx
  cases htaken with
  | idle => exact ⟨x, hx, hrounded⟩
  | called henter =>
    exact Rounding.aside ⟨x, hx, hrounded⟩ (Nat.ne_of_lt hlt) (List.getElem?_append_left hlt)
      (enter_notes henter)
  | @served j b st reply services hcall hanswer =>
    have hb : b.failure = none := Option.isNone_iff_eq_none.mp hhealthy
    by_cases hij : i = j
    · subst hij
      rw [hx] at hcall
      cases hcall
      refine ⟨_, List.getElem?_set_self hlt, ?_⟩
      show Stage.Heard runId _ (askedOf (historyOf i (w.trace ++ _))) (roundsOf i runId (w.trace ++ _))
        st reply
      rw [historyOf_self, askedOf_append, roundsOf_append]
      exact served_rounded hb hanswer hrounded
    · refine ⟨x, ?_, ?_⟩
      · show (w.calls.set j _)[i]? = some x
        rw [List.getElem?_set_ne (Ne.symm hij)]
        exact hx
      · show x.Rounded runId _ (askedOf (historyOf i (w.trace ++ _))) (roundsOf i runId (w.trace ++ _))
        rw [historyOf_other hij, List.append_nil, roundsOf_append]
        exact hrounded.shift (served_shift hanswer (Ne.symm hij))
  | @resumed j m st reply hcall =>
    by_cases hij : i = j
    · subst hij
      rw [hx] at hcall
      cases hcall
      refine ⟨_, List.getElem?_set_self hlt, ?_⟩
      show Status.Rounded runId _ (askedOf (historyOf i (w.trace ++ _))) (roundsOf i runId (w.trace ++ _)) _
      have hnotes := resume_notes (K := K) m w.process st reply
      rw [historyOf_self, askedOf_append, roundsOf_append, asked_ofCall hnotes, rounds_ofCall hnotes]
      exact resume_rounded hrounded
    · exact Rounding.aside ⟨x, hx, hrounded⟩ hij (List.getElem?_set_ne (Ne.symm hij)) (resume_notes _ _ _ _)
  | startedTurn => exact ⟨x, hx, hrounded⟩
  | movedTurn => exact ⟨x, hx, hrounded⟩
  | restarted _ => exact absurd rfl hl

/-- A call begins with no rounds. -/
theorem roundsOf_unheard {trace : List (Tagged Nat Note)} (h : historyOf i trace = []) :
    roundsOf i runId trace = {} := by
  have hothers : ∀ o ∈ trace, o.who ≠ i := by
    intro o ho hwho
    have hmem : o.what ∈ historyOf i trace := mem_historyOf.mpr (by rw [← hwho]; exact ho)
    rw [h] at hmem
    cases hmem
  refine run_invariant_of (I := fun r : Rounds => r = {}) (A := fun o : Tagged Nat Note => o.who ≠ i)
    ?_ rfl trace hothers
  intro r o ho hr
  rw [hr]
  cases happended : o.what.appended? with
  | none => exact Rounds.see_quiet happended ho
  | some commit =>
    rw [show o = ⟨o.who, o.what⟩ from rfl, Rounds.see_appended happended]
    split <;> rfl

theorem rounding_called (hunheard : Unheard w) (commit : ActionCommit) :
    Rounding w.calls.length commit.runId (w.step K (.call (.processActionCommit commit))) := by
  have hsilent := hunheard w.calls.length (Nat.le_refl _)
  refine ⟨(processActionCommit commit none).status, List.getElem?_concat_length, ?_⟩
  show Status.Rounded commit.runId _ (askedOf (historyOf w.calls.length (w.trace ++ tagged w.calls.length [])))
    (roundsOf w.calls.length commit.runId (w.trace ++ tagged w.calls.length [])) _
  rw [historyOf_self, roundsOf_append, List.append_nil, hsilent, roundsOf_unheard hsilent]
  unfold processActionCommit
  split
  · exact final_unasked rfl
  · split
    · exact final_unasked rfl
    · exact ⟨⟨rfl, rfl⟩, rfl, rfl⟩

/-- **A commit's recovery is recorded unless its last round was disturbed.** For every
commit handed to `process_action_commit` whose turn raises or ends in need of recovery,
in any interleaving with other calls and writers, none of whose services fails: the call
ends with exactly one recovery fact of its own in the log exactly when the turn raised
nothing but an `Exception`, if it raised, and nobody wrote to the run between the last two
offsets the call read. -/
theorem recovery_recorded_iff (K : Kernel σ) (journal : Journal) (store : σ)
    (before after : List Label) (commit : ActionCommit) (hinstance : .restart ∉ after)
    (hhealthy : ∀ l ∈ after, l.healthy = true) :
    let w := run (World.step K) (World.fresh journal store) before
    let w' := run (World.step K) w (.call (.processActionCommit commit) :: after)
    let history := historyOf w.calls.length w'.trace
    ∀ r, w'.calls[w.calls.length]? = some (.ended r) → (∃ n ∈ history, n.asks = true) →
      (history.countP Note.recovers = 1 ↔
        (∀ n ∈ history, n.exits = false) ∧
          lastRoundDisturbed w.calls.length commit.runId w'.trace = false) := by
  intro w w' history r hended hasks
  have hcalled := rounding_called (K := K) (unheard_run K journal store before) commit
  obtain ⟨x, hx, hrounded⟩ := run_invariant_of (I := Rounding w.calls.length commit.runId)
    (A := fun l => l ≠ .restart ∧ l.healthy = true)
    (fun v l hl hv => rounding_step (K := K) hl.1 hl.2 hv) hcalled after
    (fun l hl => ⟨fun hr => hinstance (hr ▸ hl), hhealthy l hl⟩)
  have hsame : some x = some (.ended r) := hx.symm.trans hended
  cases hsame
  have hfinal : (askedOf history).Final (roundsOf w.calls.length commit.runId w'.trace) := hrounded
  rw [askedOf_eq] at hfinal
  have hiff := hfinal (List.any_eq_true.mpr hasks)
  have hexits : history.any Note.exits = false ↔ ∀ n ∈ history, n.exits = false := by
    rw [List.any_eq_false]
    exact forall_congr' (fun n => imp_congr_right (fun _ => Bool.eq_false_iff.symm))
  rw [hexits] at hiff
  refine hiff.trans (and_congr_right (fun _ => ?_))
  exact decide_eq_false_iff_not.symm

end
end
namespace Sample

/-- The turn raises. -/
def crashed : List Label := turned (.raised (.exception ⟨.runtimeError, "boom"⟩))

/-- Another writer of the run. -/
def otherCommit : ActionCommit := commitOf "run" "run.ready"

/-- Nobody else writes. -/
def undisturbed : List Label := crashed ++ awaits 1 4

/-- Another commit is appended while the gate decides. -/
def disturbed : List Label :=
  crashed ++ awaits 1 1 ++ [.call (.write otherCommit)] ++ awaits 2 1 ++ awaits 1 2

end Sample

/-- An undisturbed recovery of a turn that raised is recorded. -/
theorem undisturbed_recovery_recorded :
    (Sample.processing Sample.kernel Sample.undisturbed).calls[1]? =
        some (.ended (.error (.exception ⟨.runtimeError, "boom"⟩))) ∧
      (historyOf 1 (Sample.processing Sample.kernel Sample.undisturbed).trace).countP Note.recovers = 1 := by
  have hended : (Sample.processing Sample.kernel Sample.undisturbed).calls[1]? =
      some (.ended (.error (.exception ⟨.runtimeError, "boom"⟩))) :=
    Status.ended_of_ended? (by decide +kernel)
  have hinstance : .restart ∉ Sample.undisturbed := by
    simp [Sample.undisturbed, Sample.crashed, Sample.turned, Sample.awaits]
  have hhealthy : ∀ l ∈ Sample.undisturbed, l.healthy = true :=
    List.all_eq_true.mp (show Sample.undisturbed.all Label.healthy = true from rfl)
  have hasks : (historyOf 1 (Sample.processing Sample.kernel Sample.undisturbed).trace).any Note.asks = true := by
    decide +kernel
  have hiff := recovery_recorded_iff Sample.kernel Journal.empty Dict.empty Sample.written
    Sample.undisturbed Sample.actionCommit hinstance hhealthy _ hended (List.any_eq_true.mp hasks)
  have hstays : (historyOf 1 (Sample.processing Sample.kernel Sample.undisturbed).trace).all
      (fun n => !n.exits) = true := by decide +kernel
  refine ⟨hended, hiff.mpr ⟨fun n hn => ?_, by decide +kernel⟩⟩
  exact Bool.not_eq_true' _ |>.mp (List.all_eq_true.mp hstays n hn)

/-- The turn raised, every service answered, and one commit of another writer came while
the gate decided: the call ends without a recovery fact. -/
theorem disturbed_recovery_lost :
    (Sample.processing Sample.kernel Sample.disturbed).calls[1]?.map (fun x => x.stage?.isNone) =
        some true ∧
      (∀ l ∈ Sample.disturbed, l.healthy = true) ∧ .restart ∉ Sample.disturbed ∧
      (∃ n ∈ historyOf 1 (Sample.processing Sample.kernel Sample.disturbed).trace, n.asks = true) ∧
      ¬ (historyOf 1 (Sample.processing Sample.kernel Sample.disturbed).trace).countP Note.recovers = 1 := by
  have hasks : (historyOf 1 (Sample.processing Sample.kernel Sample.disturbed).trace).any Note.asks = true := by
    decide +kernel
  refine ⟨by decide +kernel, ?_, ?_, List.any_eq_true.mp hasks, ?_⟩
  · exact List.all_eq_true.mp (show Sample.disturbed.all Label.healthy = true from rfl)
  · simp [Sample.disturbed, Sample.crashed, Sample.turned, Sample.awaits]
  · decide +kernel

end AgentKernel.Workflow
