import AgentKernel.Workflow.Steps

/-! Recovery decisions of one commit.

`process_action_commit` decides on a recovery in two places: after a turn that asks for
it, and in the handler around everything. The handler also catches what the first round
raises, so a first round that fails after its decision is followed by a second one.
`Tally` counts what a call has done in the two rounds; where the call stands determines
the counts (`Stage.Counted`), and `one_recovery_decision_iff` reads off when a call makes
one decision at most. -/
namespace AgentKernel.Workflow
open Lib Dedupe Turns Events Projection Reconcile

/-! ### What services answered -/

/-- `recovery.decide` was called. -/
def Note.decides : Note → Bool
  | .served (.deciding _ _ _) _ => true
  | _ => false

/-- The recovery fact was appended. -/
def Note.recovers : Note → Bool
  | .served (.recovering _ _ _ _) (.ok _) => true
  | _ => false

/-- The log moved on while the gate decided. -/
def logMoved (before after : Int) : Bool := decide (after ≠ before)

theorem readOnly_of_not_moved {before after : Int} (h : logMoved before after = false) :
    assertRecoveryGateIsReadOnly before after = .ok () := by
  unfold assertRecoveryGateIsReadOnly
  rw [if_neg (of_decide_eq_false h)]

theorem not_readOnly_of_moved {before after : Int} (h : logMoved before after = true) :
    ∃ e, assertRecoveryGateIsReadOnly before after = .error e := by
  unfold assertRecoveryGateIsReadOnly
  rw [if_pos (of_decide_eq_true h)]
  exact ⟨_, rfl⟩

/-- In the round of a turn that asks for recovery, something fails after `decide` was
called: the gate, one of the offsets around it, the append, or the outcome store. -/
def Note.failsLate : Note → Bool
  | .served (.deciding _ (.pending _) _) (.error (.exception _)) => true
  | .served (.gateAfter _ (.pending _) _ _) (.error (.exception _)) => true
  | .served (.gateAfter _ (.pending _) before _) (.ok after) => logMoved before after
  | .served (.recovering _ (.pending _) _ _) (.error (.exception _)) => true
  | .served (.settling _ (.pending _) _) (.error (.exception _)) => true
  | _ => false

/-- The handler could read the offset of the log. -/
def Note.entersHandler : Note → Bool
  | .served (.gateBefore _ (.failed _)) (.ok _) => true
  | _ => false

/-- How often each of these happened. -/
structure Tally where
  decisions : Nat := 0
  facts : Nat := 0
  late : Nat := 0
  handler : Nat := 0
  deriving DecidableEq

def Note.tally (n : Note) : Tally :=
  { decisions := n.decides.toNat
    facts := n.recovers.toNat
    late := n.failsLate.toNat
    handler := n.entersHandler.toNat }

def tallyOf (history : List Note) : Tally :=
  { decisions := history.countP Note.decides
    facts := history.countP Note.recovers
    late := history.countP Note.failsLate
    handler := history.countP Note.entersHandler }

def Tally.add (t u : Tally) : Tally :=
  ⟨t.decisions + u.decisions, t.facts + u.facts, t.late + u.late, t.handler + u.handler⟩

theorem tallyOf_append (h new : List Note) : tallyOf (h ++ new) = (tallyOf h).add (tallyOf new) := by
  simp [tallyOf, Tally.add]

theorem tallyOf_singleton (n : Note) : tallyOf [n] = n.tally := by
  simp only [tallyOf, Note.tally, List.countP_singleton]
  cases n.decides <;> cases n.recovers <;> cases n.failsLate <;> cases n.entersHandler <;> rfl

theorem tallyOf_ofCall {notes : List Note} (h : ∀ n ∈ notes, n.ofCall = true) : tallyOf notes = {} := by
  have hzero : ∀ p : Note → Bool, (∀ n : Note, n.ofCall = true → p n = false) → notes.countP p = 0 := by
    intro p hp
    refine List.countP_eq_zero.mpr (fun n hn => ?_)
    rw [hp n (h n hn)]
    exact Bool.false_ne_true
  have hcall : ∀ n : Note, n.ofCall = true → n.decides = false ∧ n.recovers = false ∧
      n.failsLate = false ∧ n.entersHandler = false := by
    intro n hn
    cases n with
    | served st reply => cases hn
    | _ => exact ⟨rfl, rfl, rfl, rfl⟩
  simp only [tallyOf, hzero _ (fun n hn => (hcall n hn).1), hzero _ (fun n hn => (hcall n hn).2.1),
    hzero _ (fun n hn => (hcall n hn).2.2.1), hzero _ (fun n hn => (hcall n hn).2.2.2)]

/-! ### The counts of a call -/

/-- What the first round leaves to the handler: nothing was decided, or the decision was
made and the round failed after it. -/
def Tally.Relapsed (t : Tally) : Prop :=
  (t.decisions = 0 ∧ t.facts = 0 ∧ t.late = 0) ∨ (t.decisions = 1 ∧ t.facts ≤ 1 ∧ t.late = 1)

/-- The counts of a call that awaits a stage. -/
def Stage.Counted (st : Stage) (t : Tally) : Prop :=
  match st with
  | .gateAfter _ (.pending _) _ _ | .recovering _ (.pending _) _ _ => t = { decisions := 1 }
  | .settling _ (.pending _) _ => t = { decisions := 1, facts := 1 }
  | .gateBefore _ (.failed _) => t.Relapsed ∧ t.handler = 0
  | .deciding _ (.failed _) _ =>
    ∃ u : Tally, u.Relapsed ∧ u.handler = 0 ∧ t = u.add { handler := 1 }
  | .gateAfter _ (.failed _) _ _ | .recovering _ (.failed _) _ _ =>
    ∃ u : Tally, u.Relapsed ∧ u.handler = 0 ∧ t = u.add { handler := 1, decisions := 1 }
  | .settling _ (.failed _) _ =>
    ∃ u : Tally, u.Relapsed ∧ u.handler = 0 ∧ t = u.add { handler := 1, decisions := 1, facts := 1 }
  | _ => t = {}

/-- The counts of a call that has ended: the handler did not get far, or it decided too. -/
def Tally.Final (t : Tally) : Prop :=
  (t.handler = 0 ∧ t.decisions ≤ 1 ∧ t.facts ≤ 1) ∨
    ∃ u : Tally, u.Relapsed ∧ u.handler = 0 ∧
      ∃ facts, facts ≤ 1 ∧ t = u.add { handler := 1, decisions := 1, facts := facts }

def Status.Counted (x : Status) (t : Tally) : Prop :=
  match x with
  | .awaiting st => st.Counted t
  | .answered st reply => ∃ u, st.Counted u ∧ t = u.add (Note.served st reply).tally
  | .ended _ => t.Final

theorem Tally.Relapsed.final {t : Tally} (h : t.Relapsed) (hh : t.handler = 0) : t.Final := by
  refine .inl ⟨hh, ?_, ?_⟩ <;> rcases h with ⟨hd, hf, -⟩ | ⟨hd, hf, -⟩ <;> omega

theorem final_zero : Tally.Final {} := .inl ⟨rfl, by decide, by decide⟩

/-- A stage of `process_action_commit` when no signal made the commit. -/
def Stage.Direct : Stage → Prop
  | .catchingUp q | .readying q _ | .lookingUp q _ | .marking q _ => q.delivery = none
  | .turning a _ | .intending a _ _ | .recordingOutcome a _ _ | .gateBefore a _ | .deciding a _ _
  | .gateAfter a _ _ _ | .recovering a _ _ _ | .settling a _ _ => a.processing.delivery = none
  | _ => False

/-- Where a direct call stands and what it has counted. -/
def Status.Tracks (x : Status) (t : Tally) : Prop :=
  x.Counted t ∧ ∀ st, x.stage? = some st → st.Direct

theorem Tally.add_zero (t : Tally) : t.add {} = t := rfl

section
variable {σ : Type} {K : Kernel σ} {m : Moment} {p : Process σ} {a : Acting} {t u : Tally}

theorem tracks_ended (r : Except Raised Unit) (h : t.Final) : (Status.ended r).Tracks t :=
  ⟨h, fun _ hst => nomatch hst⟩

theorem tracks_awaiting {st : Stage} (h : st.Counted t) (hdirect : st.Direct) :
    (Status.awaiting st).Tracks t :=
  ⟨h, fun st' hst' => by cases hst'; exact hdirect⟩

/-- `process_action_commit` returns to its caller. -/
theorem tracks_processed {delivery : Option Delivery} (hdelivery : delivery = none) (h : t.Final) :
    (processed K m p delivery).next.status.Tracks t := by
  rw [hdelivery]
  exact tracks_ended _ h

/-- Something raised before any decision, or late in the first round. -/
theorem tracks_failed (hdirect : a.processing.delivery = none) (ht : t.handler = 0) {r : Raised}
    (hexit : t.Final) (hexception : ∀ e, r = .exception e → t.Relapsed) :
    (actionFailed p a r).next.status.Tracks t := by
  cases r with
  | exception e => exact tracks_awaiting ⟨hexception e rfl, ht⟩ hdirect
  | exit name => exact tracks_ended _ hexit

theorem relapsed_zero : Tally.Relapsed {} := .inl ⟨rfl, rfl, rfl⟩

/-- A decision that was made in the first round, which then failed. -/
theorem relapsed_late {t : Tally} (hd : t.decisions = 1) (hf : t.facts ≤ 1) (hl : t.late = 1) :
    t.Relapsed := .inr ⟨hd, hf, hl⟩

theorem final_handler {u : Tally} (hu : u.Relapsed) (hh : u.handler = 0) {facts : Nat} (hf : facts ≤ 1) :
    (u.add { handler := 1, decisions := 1, facts := facts }).Final :=
  .inr ⟨u, hu, hh, facts, hf, rfl⟩

theorem final_first {t : Tally} (hh : t.handler = 0) (hd : t.decisions ≤ 1) (hf : t.facts ≤ 1) :
    t.Final := .inl ⟨hh, hd, hf⟩

/-- A first round that raises after its decision; only an exception is counted as late. -/
theorem tracks_failed_late (hdirect : a.processing.delivery = none) {r : Raised}
    (hh : t.handler = 0) (hd : t.decisions = 1) (hf : t.facts ≤ 1)
    (hl : ∀ e, r = .exception e → t.late = 1) : (actionFailed p a r).next.status.Tracks t :=
  tracks_failed hdirect hh (final_first hh (Nat.le_of_eq hd) hf)
    (fun e he => relapsed_late hd hf (hl e he))

/-! #### After the decision -/

theorem deciding_tracks {round : Round} {before : Int}
    {reply : (Stage.deciding a round before).Reply} (hst : (Stage.deciding a round before).Counted u)
    (hdirect : a.processing.delivery = none) :
    (resume K m p (.deciding a round before) reply).next.status.Tracks
      (u.add (Note.served (.deciding a round before) reply).tally) := by
  cases round with
  | pending result =>
    obtain rfl : u = {} := hst
    cases reply with
    | error r =>
      refine tracks_failed_late hdirect rfl rfl (Nat.zero_le 1) (fun e he => ?_)
      subst he
      rfl
    | ok decision => exact tracks_awaiting rfl hdirect
  | failed err =>
    obtain ⟨v, hv, hh, rfl⟩ := hst
    cases reply with
    | error r => exact tracks_ended _ (final_handler hv hh (Nat.zero_le 1))
    | ok decision => exact tracks_awaiting ⟨v, hv, hh, rfl⟩ hdirect

theorem gateAfter_tracks {round : Round} {before : Int} {decision : RecoveryDecision}
    {reply : (Stage.gateAfter a round before decision).Reply}
    (hst : (Stage.gateAfter a round before decision).Counted u)
    (hdirect : a.processing.delivery = none) :
    (resume K m p (.gateAfter a round before decision) reply).next.status.Tracks
      (u.add (Note.served (.gateAfter a round before decision) reply).tally) := by
  cases round with
  | pending result =>
    obtain rfl : u = { decisions := 1 } := hst
    cases reply with
    | error r =>
      refine tracks_failed_late hdirect rfl rfl (Nat.zero_le 1) (fun e he => ?_)
      subst he
      rfl
    | ok after =>
      have htally : Note.tally (.served (.gateAfter a (.pending result) before decision) (.ok after)) =
          { late := (logMoved before after).toNat } := rfl
      rw [htally]
      unfold resume
      cases hmoved : logMoved before after with
      | false =>
        simp only [readOnly_of_not_moved hmoved, recoveryEventType_allowed]
        exact tracks_awaiting rfl hdirect
      | true =>
        obtain ⟨e, he⟩ := not_readOnly_of_moved hmoved
        simp only [he]
        exact tracks_failed_late hdirect rfl rfl (Nat.zero_le 1) (fun _ _ => rfl)
  | failed err =>
    obtain ⟨v, hv, hh, rfl⟩ := hst
    cases reply with
    | error r => exact tracks_ended _ (final_handler hv hh (Nat.zero_le 1))
    | ok after =>
      unfold resume
      cases hgate : assertRecoveryGateIsReadOnly before after with
      | error e =>
        simp only [hgate]
        exact tracks_ended _ (final_handler hv hh (Nat.zero_le 1))
      | ok u =>
        cases u
        simp only [hgate, recoveryEventType_allowed]
        exact tracks_awaiting ⟨v, hv, hh, rfl⟩ hdirect

theorem recovering_tracks {round : Round} {decision : RecoveryDecision} {commit : ActionCommit}
    {reply : (Stage.recovering a round decision commit).Reply}
    (hst : (Stage.recovering a round decision commit).Counted u)
    (hdirect : a.processing.delivery = none) :
    (resume K m p (.recovering a round decision commit) reply).next.status.Tracks
      (u.add (Note.served (.recovering a round decision commit) reply).tally) := by
  cases round with
  | pending result =>
    obtain rfl : u = { decisions := 1 } := hst
    cases reply with
    | error r =>
      refine tracks_failed_late hdirect rfl rfl (Nat.zero_le 1) (fun e he => ?_)
      subst he
      rfl
    | ok _ =>
      show Status.Tracks (Next.status (Resumed.next (if K.hasRecoveryOutcomes then _ else _))) _
      split
      · exact tracks_awaiting rfl hdirect
      · exact tracks_processed hdirect (final_first rfl (Nat.le_refl 1) (Nat.le_refl 1))
  | failed err =>
    obtain ⟨v, hv, hh, rfl⟩ := hst
    cases reply with
    | error r => exact tracks_ended _ (final_handler hv hh (Nat.zero_le 1))
    | ok _ =>
      show Status.Tracks (Next.status (Resumed.next (if K.hasRecoveryOutcomes then _ else _))) _
      split
      · exact tracks_awaiting ⟨v, hv, hh, rfl⟩ hdirect
      · exact tracks_ended _ (final_handler hv hh (Nat.le_refl 1))

theorem settling_tracks {round : Round} {outcome : RecoveryOutcome}
    {reply : (Stage.settling a round outcome).Reply} (hst : (Stage.settling a round outcome).Counted u)
    (hdirect : a.processing.delivery = none) :
    (resume K m p (.settling a round outcome) reply).next.status.Tracks
      (u.add (Note.served (.settling a round outcome) reply).tally) := by
  cases round with
  | pending result =>
    obtain rfl : u = { decisions := 1, facts := 1 } := hst
    cases reply with
    | error r =>
      refine tracks_failed_late hdirect rfl rfl (Nat.le_refl 1) (fun e he => ?_)
      subst he
      rfl
    | ok _ => exact tracks_processed hdirect (final_first rfl (Nat.le_refl 1) (Nat.le_refl 1))
  | failed err =>
    obtain ⟨v, hv, hh, rfl⟩ := hst
    cases reply with
    | error r => exact tracks_ended _ (final_handler hv hh (Nat.le_refl 1))
    | ok _ => exact tracks_ended _ (final_handler hv hh (Nat.le_refl 1))

/-- **Continuing a direct call keeps its counts.** -/
theorem resume_tracks {st : Stage} {reply : st.Reply} (hst : st.Counted u) (hdirect : st.Direct) :
    (resume K m p st reply).next.status.Tracks (u.add (Note.served st reply).tally) := by
  cases st with
  | starting input => exact hdirect.elim
  | pinning input commit => exact hdirect.elim
  | signalled d => exact hdirect.elim
  | recording d commit => exact hdirect.elim
  | writing commit => exact hdirect.elim
  | sweeping runId rest => exact hdirect.elim
  | catchingUp q =>
    obtain rfl : u = {} := hst
    cases reply with
    | error r => exact tracks_ended _ final_zero
    | ok projection => exact tracks_awaiting rfl hdirect
  | readying q projection =>
    obtain rfl : u = {} := hst
    cases reply with
    | error r => exact tracks_ended _ final_zero
    | ok ready =>
      cases ready with
      | true => exact tracks_awaiting rfl hdirect
      | false => exact tracks_processed hdirect final_zero
  | lookingUp q projection =>
    obtain rfl : u = {} := hst
    cases reply with
    | error r => exact tracks_ended _ final_zero
    | ok seen =>
      cases seen with
      | true => exact tracks_processed hdirect final_zero
      | false => exact tracks_awaiting rfl hdirect
  | marking q projection =>
    obtain rfl : u = {} := hst
    cases reply with
    | error r => exact tracks_ended _ final_zero
    | ok u =>
      cases u
      unfold resume
      simp only
      split
      · exact tracks_processed hdirect final_zero
      · exact tracks_awaiting rfl hdirect
  | turning a index =>
    obtain rfl : u = {} := hst
    cases reply with
    | error r => exact tracks_failed hdirect rfl final_zero (fun _ _ => relapsed_zero)
    | ok result =>
      show (turnReturned K m p a result).next.status.Tracks _
      unfold turnReturned
      split
      · exact tracks_awaiting rfl hdirect
      · split
        · exact tracks_awaiting rfl hdirect
        · exact tracks_awaiting rfl hdirect
  | intending a result record =>
    obtain rfl : u = {} := hst
    cases reply with
    | error r =>
      cases r with
      | exception e => exact tracks_awaiting ⟨relapsed_zero, rfl⟩ hdirect
      | exit name => exact tracks_ended _ final_zero
    | ok _ => exact tracks_awaiting rfl hdirect
  | recordingOutcome a result commit =>
    obtain rfl : u = {} := hst
    cases reply with
    | error r =>
      cases r with
      | exception e => exact tracks_awaiting ⟨relapsed_zero, rfl⟩ hdirect
      | exit name => exact tracks_ended _ final_zero
    | ok u =>
      cases u
      unfold resume
      simp only
      split
      · exact tracks_failed hdirect rfl final_zero (fun _ _ => relapsed_zero)
      · split
        · exact tracks_awaiting rfl hdirect
        · exact tracks_processed hdirect final_zero
  | gateBefore a round =>
    cases round with
    | pending result =>
      obtain rfl : u = {} := hst
      cases reply with
      | error r => exact tracks_failed hdirect rfl final_zero (fun _ _ => relapsed_zero)
      | ok before => exact tracks_awaiting rfl hdirect
    | failed err =>
      obtain ⟨hu, hh⟩ := hst
      cases reply with
      | error r => exact tracks_ended _ (hu.final hh)
      | ok before => exact tracks_awaiting ⟨u, hu, hh, rfl⟩ hdirect
  | deciding a round before => exact deciding_tracks hst hdirect
  | gateAfter a round before decision => exact gateAfter_tracks hst hdirect
  | recovering a round decision commit => exact recovering_tracks hst hdirect
  | settling a round outcome => exact settling_tracks hst hdirect

/-! ### Whole calls -/

theorem callStep_tracks {v : World σ} {x y : Status} {h new : List Note}
    (hstep : CallStep K v x y new) (hx : x.Tracks (tallyOf h)) : y.Tracks (tallyOf (h ++ new)) := by
  rw [tallyOf_append]
  cases hstep with
  | still => exact hx
  | served hanswer =>
    rw [tallyOf_singleton]
    exact ⟨⟨_, hx.1, rfl⟩, hx.2⟩
  | @resumed st reply m =>
    obtain ⟨⟨u, hu, ht⟩, hdirect⟩ := hx
    rw [tallyOf_ofCall (resume_notes m v.process st reply), Tally.add_zero, ht]
    exact resume_tracks hu (hdirect st rfl)

theorem processActionCommit_tracks (commit : ActionCommit) :
    (processActionCommit commit none).status.Tracks {} := by
  unfold processActionCommit
  split
  · exact tracks_ended _ final_zero
  · split
    · exact tracks_ended _ final_zero
    · exact tracks_awaiting rfl rfl

/-- The counts of a call that has ended decide whether there was a second round. -/
theorem Tally.Final.once_iff {t : Tally} (h : t.Final) :
    (t.decisions ≤ 1 ∧ t.facts ≤ 1) ↔ ¬ (0 < t.late ∧ 0 < t.handler) := by
  rcases h with ⟨hh, hd, hf⟩ | ⟨u, hu, hh, facts, hfacts, rfl⟩
  · constructor
    · intro _
      omega
    · exact fun _ => ⟨hd, hf⟩
  · simp only [Tally.add]
    rcases hu with ⟨hd, hf, hl⟩ | ⟨hd, hf, hl⟩ <;> omega

/-- **A commit's recovery is decided once unless the first round fails after its
decision.** For every commit handed to `process_action_commit`, whatever else happens and
whatever the ports answer: the call decides at most once and appends at most one recovery
fact exactly when it is not the case that the round of a pending recovery failed once
`decide` had been called and the handler could then read the log. -/
theorem one_recovery_decision_iff (K : Kernel σ) (journal : Journal) (store : σ)
    (before after : List Label) (commit : ActionCommit) (hinstance : .restart ∉ after) :
    let w := run (World.step K) (World.fresh journal store) before
    let w' := run (World.step K) w (.call (.processActionCommit commit) :: after)
    let history := historyOf w.calls.length w'.trace
    ∀ r, w'.calls[w.calls.length]? = some (.ended r) →
      ((history.countP Note.decides ≤ 1 ∧ history.countP Note.recovers ≤ 1) ↔
        ¬ ((∃ n ∈ history, n.failsLate = true) ∧ ∃ n ∈ history, n.entersHandler = true)) := by
  intro w w' history r hended
  have hunheard := unheard_run K journal store before
  have hmade : (w.step K (.call (.processActionCommit commit))).calls[w.calls.length]? =
      some (processActionCommit commit none).status := List.getElem?_concat_length
  have hsilent : historyOf w.calls.length (w.step K (.call (.processActionCommit commit))).trace = [] := by
    show historyOf w.calls.length (w.trace ++ tagged w.calls.length []) = []
    rw [historyOf_self, List.append_nil]
    exact hunheard _ (Nat.le_refl _)
  obtain ⟨y, hy, htracks⟩ := call_invariant (I := fun x h => x.Tracks (tallyOf h)) K
    (w.step K (.call (.processActionCommit commit))) w.calls.length hmade
    (by rw [hsilent]; exact processActionCommit_tracks commit)
    (fun v x y h new hstep hx => callStep_tracks hstep hx) after hinstance
  have hy' : some y = some (.ended r) := hy.symm.trans hended
  cases hy'
  have hfinal : (tallyOf history).Final := htracks.1
  have hpos : ∀ p : Note → Bool, (∃ n ∈ history, p n = true) ↔ 0 < history.countP p :=
    fun p => List.countP_pos_iff.symm
  rw [hpos, hpos]
  exact hfinal.once_iff

end
namespace Sample

/-- A workflow that stores recovery outcomes. -/
def storing : Kernel InMemoryDedupeStore := { kernel with hasRecoveryOutcomes := true }

/-- The turn asks for recovery, and every port answers. -/
def recovered : List Label := turned unacknowledged ++ awaits 1 6

/-- The turn asks for recovery, and the outcome store is down. -/
def relapsing : List Label := turned unacknowledged ++ awaits 1 5 ++ failing 1 ++ awaits 1 5

end Sample

/-- A recovery whose ports all answer is decided once. -/
theorem answered_recovery_decided_once :
    (Sample.processing Sample.storing Sample.recovered).calls[1]? = some (.ended (.ok ())) ∧
      (historyOf 1 (Sample.processing Sample.storing Sample.recovered).trace).countP Note.decides ≤ 1 ∧
      (historyOf 1 (Sample.processing Sample.storing Sample.recovered).trace).countP Note.recovers ≤ 1 := by
  have hended : (Sample.processing Sample.storing Sample.recovered).calls[1]? =
      some (.ended (.ok ())) := Status.ended_of_ended? (by decide +kernel)
  have hinstance : .restart ∉ Sample.recovered := by
    simp [Sample.recovered, Sample.turned, Sample.awaits]
  have hnone : (historyOf 1 (Sample.processing Sample.storing Sample.recovered).trace).all
      (fun n => !n.failsLate) = true := by decide +kernel
  have hiff := one_recovery_decision_iff Sample.storing Journal.empty Dict.empty Sample.written
    Sample.recovered Sample.actionCommit hinstance (.ok ()) hended
  refine ⟨hended, hiff.mpr (fun hboth => ?_)⟩
  obtain ⟨⟨n, hn, hlate⟩, -⟩ := hboth
  have hn' := List.all_eq_true.mp hnone n hn
  rw [hlate] at hn'
  cases hn'

/-- When the outcome store fails after the fact is durable, the handler decides again and
appends a second fact. -/
theorem failed_outcome_store_decides_twice :
    ¬ ((historyOf 1 (Sample.processing Sample.storing Sample.relapsing).trace).countP Note.decides ≤ 1 ∧
      (historyOf 1 (Sample.processing Sample.storing Sample.relapsing).trace).countP Note.recovers ≤ 1) := by
  decide +kernel

end AgentKernel.Workflow
