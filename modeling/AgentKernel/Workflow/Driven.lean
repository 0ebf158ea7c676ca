import AgentKernel.Turns.Subject
import AgentKernel.Workflow.InFlight

/-! Worlds in which commits are written and processed, and nothing else is called.

Every call stands at a stage of `process_action_commit`, or writes to the log. So the log
holds what its writers gave it, an outcome event for every turn, under the fingerprint of
the turn's own action, and recovery events under no key at all (`Wrote`). While every
outcome is recorded nobody but the turns writes to the dedupe store: it holds the two keys
of every turn that was dispatched and no other, in the state the executor's answer left
them in (`driven_run`). -/
namespace AgentKernel.Workflow
open Lib Dedupe Turns Events Projection Reconcile

/-- Commits are written and processed. -/
def Label.drives : Label → Bool
  | .call (.processActionCommit _) | .call (.write _) | .serve _ _ | .resume _ _ | .turn _ => true
  | _ => false

/-- What the turn of an action is started with. -/
def Acting.turnInput (a : Acting) : TurnInput :=
  { runId := a.processing.commit.runId
    throughOffset := a.processing.offset
    basedOnOffset := a.processing.offset
    triggerType := .signal }

/-- The key its outcome event is written under. -/
def Acting.fingerprint (a : Acting) : String := decisionFingerprint a.turnInput a.action

/-! ### Stages -/

/-- What a stage has to say is what it is about. -/
def Stage.Sound (turns : List Turn) : Stage → Prop
  | .turning a k => ∃ t, turns[k]? = some t ∧ t.input = a.turnInput ∧
      t.progress.Concerns t.input a.action
  | .intending a result _ => result.decisionFingerprint = a.fingerprint
  | .recordingOutcome a result commit => result.decisionFingerprint = a.fingerprint ∧
      ∃ offset now, commit =
        turnOutcomeCommit a.processing.commit.runId offset result a.action.actionId now
  | .recovering a _ decision commit => ∃ offset now, commit =
      recoveryCommit a.processing.commit.runId offset decision a.action.actionId now
  | _ => True

inductive Stage.Driven (turns : List Turn) : Stage → Prop where
  | processing {st : Stage} {q : Processing} : st.processing? = some q → q.delivery = none →
    st.Sound turns → Stage.Driven turns st
  | writing {commit : ActionCommit} : Stage.Driven turns (.writing commit)

/-- The answer of a turn is about its action. -/
def Stage.Answered : (st : Stage) → st.Reply → Prop
  | .turning a _, .ok result => result.decisionFingerprint = a.fingerprint
  | _, _ => True

def Status.Driven (turns : List Turn) : Status → Prop
  | .awaiting st => st.Driven turns
  | .answered st reply => st.Driven turns ∧ st.Answered reply
  | .ended _ => True

/-- The turns are still there and still about the same. -/
def Carries (turns turns' : List Turn) : Prop :=
  ∀ (k : Nat) (t : Turn), turns[k]? = some t → ∃ t', turns'[k]? = some t' ∧ t'.input = t.input ∧
    ∀ action, t.progress.Concerns t.input action → t'.progress.Concerns t'.input action

theorem carries_refl (turns : List Turn) : Carries turns turns :=
  fun _ t ht => ⟨t, ht, rfl, fun _ h => h⟩

theorem carries_append (turns : List Turn) (t' : Turn) : Carries turns (turns ++ [t']) := by
  intro k t ht
  obtain ⟨hlt, -⟩ := List.getElem?_eq_some_iff.mp ht
  exact ⟨t, by rw [List.getElem?_append_left hlt]; exact ht, rfl, fun _ h => h⟩

section
variable {σ : Type} {K : Kernel σ} {w : World σ}

theorem carries_moved (port : DedupeStorePort σ) (H : Digest) (e : System σ) (l : Turns.Label) :
    Carries e.turns (e.step port H l).turns := by
  unfold System.step
  cases hturn : e.turns[l.turn]? with
  | none => exact carries_refl _
  | some u =>
    intro k t ht
    obtain ⟨hlt, -⟩ := List.getElem?_eq_some_iff.mp hturn
    by_cases hk : l.turn = k
    · subst hk
      obtain rfl : u = t := Option.some.inj (hturn.symm.trans ht)
      exact ⟨_, List.getElem?_set_self hlt, rfl, fun _ h => move_concerns h _ _⟩
    · refine ⟨t, ?_, rfl, fun _ h => h⟩
      show (e.turns.set _ _)[k]? = some t
      rw [List.getElem?_set_ne hk]
      exact ht

theorem step_carries (K : Kernel σ) (w : World σ) (l : Label) :
    Carries w.process.engine.turns (w.step K l).process.engine.turns := by
  have hstep := step_engine K w l
  generalize (w.step K l).process.engine = e at hstep
  cases hstep with
  | same => exact carries_refl _
  | moved => exact carries_moved _ _ _ _
  | started c => exact carries_append _ _
  | rolledBack hcall hlost hkey => exact carries_refl _
  | swept hcall hloaded => exact carries_refl _

end

theorem Stage.Driven.carried {turns turns' : List Turn} {st : Stage} (h : st.Driven turns)
    (hcarries : Carries turns turns') : st.Driven turns' := by
  cases h with
  | processing hq hdelivery hsound =>
    refine .processing hq hdelivery ?_
    cases st with
    | turning a k =>
      obtain ⟨t, ht, hinput, hconcerns⟩ := hsound
      obtain ⟨t', ht', hsame, hkeep⟩ := hcarries k t ht
      exact ⟨t', ht', hsame.trans hinput, hkeep _ hconcerns⟩
    | _ => exact hsound
  | writing => exact .writing

theorem Status.Driven.carried {turns turns' : List Turn} {x : Status} (h : x.Driven turns)
    (hcarries : Carries turns turns') : x.Driven turns' := by
  cases x with
  | awaiting st => exact Stage.Driven.carried h hcarries
  | answered st reply => exact ⟨Stage.Driven.carried h.1 hcarries, h.2⟩
  | ended r => exact trivial

/-! ### Going on -/

section
variable {turns : List Turn} {a : Acting} {st : Stage}

/-- A driven stage of which the commit is known. -/
theorem Stage.Driven.about {q : Processing} (h : st.Driven turns) (hq : st.processing? = some q) :
    q.delivery = none ∧ st.Sound turns := by
  cases h with
  | processing hq' hdelivery hsound =>
    rw [hq] at hq'
    cases hq'
    exact ⟨hdelivery, hsound⟩
  | writing => cases hq

/-- The next stage, unless the stage was that of a turn. -/
theorem Follows.driven {st' : Stage} (h : Follows st st') (hst : st.Driven turns)
    (hturn : ∀ a k, st ≠ .turning a k) : st'.Driven turns := by
  cases h with
  | recording => cases hst with
    | processing hq _ _ => cases hq
  | lookingUp => exact .processing rfl (hst.about rfl).1 trivial
  | marking => exact .processing rfl (hst.about rfl).1 trivial
  | intending => exact absurd rfl (hturn _ _)
  | outcome => exact absurd rfl (hturn _ _)
  | intended =>
    obtain ⟨hdelivery, hsound⟩ := hst.about rfl
    exact .processing rfl hdelivery ⟨hsound, _, _, rfl⟩
  | pending => exact .processing rfl (hst.about rfl).1 trivial
  | handler hguarded => exact .processing rfl (hst.about hguarded.processing).1 trivial
  | deciding => exact .processing rfl (hst.about rfl).1 trivial
  | gateAfter => exact .processing rfl (hst.about rfl).1 trivial
  | recovering => exact .processing rfl (hst.about rfl).1 ⟨_, _, rfl⟩
  | settling => exact .processing rfl (hst.about rfl).1 trivial

end

section
variable {σ : Type} {K : Kernel σ} {m : Moment} {p : Process σ}

/-- After a turn: what it returned goes to the next stage. -/
theorem turning_driven {a : Acting} {k : Nat} {reply : Stage.Reply (.turning a k)}
    (hst : (Stage.turning a k).Driven p.engine.turns)
    (hreply : (Stage.turning a k).Answered reply) :
    (resume K m p (.turning a k) reply).next.status.Driven
      (resume K m p (.turning a k) reply).process.engine.turns := by
  have hdelivery := (hst.about rfl).1
  cases reply with
  | ok result =>
    have hfingerprint : result.decisionFingerprint = a.fingerprint := hreply
    show (turnReturned K m p a result).next.status.Driven _
    unfold turnReturned
    split
    · exact .processing rfl hdelivery ⟨hfingerprint, _, _, rfl⟩
    · split
      · exact .processing rfl hdelivery hfingerprint
      · exact .processing rfl hdelivery ⟨hfingerprint, _, _, rfl⟩
  | error r =>
    cases r with
    | exception e => exact .processing rfl hdelivery trivial
    | exit name => exact trivial

theorem resume_driven {st : Stage} {reply : st.Reply} (hst : st.Driven p.engine.turns)
    (hreply : st.Answered reply) :
    (resume K m p st reply).next.status.Driven (resume K m p st reply).process.engine.turns := by
  by_cases hturning : ∃ a k, st = .turning a k
  · obtain ⟨a, k, rfl⟩ := hturning
    exact turning_driven hst hreply
  · have hturn : ∀ a k, st ≠ .turning a k := fun a k h => hturning ⟨a, k, h⟩
    have hcont := resume_continued K m p st reply
    generalize resume K m p st reply = r at hcont
    cases hcont with
    | ended => exact trivial
    | awaits hfollows => exact hfollows.driven hst hturn
    | caughtUp => exact .processing rfl (hst.about rfl).1 trivial
    | returned hreturns =>
      have hnone := (hst.about hreturns.processing).1
      rw [hnone]
      exact trivial
    | acts _ =>
      exact .processing rfl (hst.about rfl).1 ⟨_, List.getElem?_concat_length, rfl, rfl⟩
    | unintended => exact .processing rfl (hst.about rfl).1 trivial
    | unrecorded => exact .processing rfl (hst.about rfl).1 trivial
    | started _ | pins _ | pinned | recorded | sweeps _ =>
      cases hst with
      | processing hq _ _ => cases hq

theorem enter_driven {entry : Entry} {r : Resumed σ} (hentry : (Label.call entry).drives = true)
    (h : enter p entry = some r) :
    r.next.status.Driven r.process.engine.turns ∧ r.process.engine = p.engine := by
  refine ⟨?_, enter_engine h⟩
  cases entry with
  | processActionCommit commit =>
    cases h
    show (processActionCommit commit none).status.Driven _
    unfold processActionCommit
    split
    · exact trivial
    · split
      · exact trivial
      · exact .processing rfl rfl trivial
  | write commit =>
    cases h
    exact .writing
  | _ => cases hentry

end
/-! ### The log -/

/-- Who wrote a commit, and what it then looks like. -/
inductive Wrote : Stage → ActionCommit → Prop where
  | caller {commit : ActionCommit} : Wrote (.writing commit) commit
  | outcome {a : Acting} {result : TurnResult} {commit : ActionCommit} {offset : Int} {now : String} :
    result.decisionFingerprint = a.fingerprint →
    commit = turnOutcomeCommit a.processing.commit.runId offset result a.action.actionId now →
    Wrote (.recordingOutcome a result commit) commit
  | recovery {a : Acting} {round : Round} {decision : RecoveryDecision} {commit : ActionCommit}
      {offset : Int} {now : String} :
    commit = recoveryCommit a.processing.commit.runId offset decision a.action.actionId now →
    Wrote (.recovering a round decision commit) commit

theorem Stage.Driven.wrote {turns : List Turn} {st : Stage} {commit : ActionCommit}
    (h : st.Driven turns) (hcommit : st.request = .append commit) : Wrote st commit := by
  cases h with
  | processing hq hdelivery hsound =>
    cases st with
    | recordingOutcome a result commit' =>
      cases hcommit
      obtain ⟨hfingerprint, offset, now, hshape⟩ := hsound
      exact .outcome hfingerprint hshape
    | recovering a round decision commit' =>
      cases hcommit
      obtain ⟨offset, now, hshape⟩ := hsound
      exact .recovery hshape
    | pinning _ _ | recording _ _ | writing _ => cases hq
    | _ => cases hcommit
  | writing =>
    cases hcommit
    exact .caller

/-! ### The dedupe store -/

/-- Only the turns have written to the store. -/
structure Undisturbed (S : HealthyStore) (H : Digest) (e : System S.State) : Prop where
  owned : Owned S H e
  settled : ∀ b, AllSettled S H e b
  keys : ∀ key, S.view e.store key ≠ none →
    ∃ k c, ⟨k, .dispatched c⟩ ∈ e.trace ∧ (key = c.policyKey H ∨ key = c.legacyKey)

section
variable {S : HealthyStore} {H : Digest} {e : System S.State}

/-- A step of a turn puts a key into the ledger only by dispatching under it. -/
theorem Effect.keys {L L' : Ledger} {p p' : Progress} {new : List Happening}
    (h : Effect H L p new p' L') (hready : p.Ready H L) {key : String} (hkey : L' key ≠ none) :
    L key ≠ none ∨ ∃ c, .dispatched c ∈ new ∧ (key = c.policyKey H ∨ key = c.legacyKey) := by
  have hboth : ∀ (c : Candidate) (rec rec' : DedupeRecord), putBoth H c L rec rec' key ≠ none →
      L key ≠ none ∨ key = c.policyKey H ∨ key = c.legacyKey := by
    intro c rec rec' hput
    by_cases hpolicy : key = c.policyKey H
    · exact .inr (.inl hpolicy)
    · by_cases hlegacy : key = c.legacyKey
      · exact .inr (.inr hlegacy)
      · rw [putBoth_other hpolicy hlegacy] at hput
        exact .inl hput
  cases h with
  | accepted hd _ _ _ _ _ =>
    rcases hboth _ _ _ hkey with hold | hnew
    · exact .inl hold
    · exact .inr ⟨_, by simp, hnew⟩
  | @closed d _ _ _ _ _ _ _ _ _ _ =>
    rcases hboth _ _ _ hkey with hold | rfl | rfl
    · exact .inl hold
    · exact .inl hready.policy.present
    · exact .inl hready.legacy.present
  | _ => exact .inl hkey

theorem Undisturbed.moved (h : Undisturbed S H e) (l : Turns.Label) :
    Undisturbed S H (e.step S.port H l) where
  owned := owned_step h.owned l
  settled := fun b => (h.settled b).moved h.owned l
  keys := by
    intro key hkey
    cases hturn : e.turns[l.turn]? with
    | none =>
      have hidle : e.step S.port H l = e := by
        unfold System.step
        rw [hturn]
      rw [hidle] at hkey ⊢
      exact h.keys key hkey
    | some t =>
      have hstep := h.owned.stepped hturn
      rcases Effect.keys hstep.effect (h.owned.ready _ t hturn) hkey with hold | ⟨c, hc, hnew⟩
      · obtain ⟨k, c, hc, hnew⟩ := h.keys key hold
        exact ⟨k, c, hstep.mem_trace.mpr (.inl hc), hnew⟩
      · exact ⟨l.turn, c, hstep.mem_trace.mpr (.inr ⟨rfl, hc⟩), hnew⟩

theorem Undisturbed.started (h : Undisturbed S H e) (c : TurnCall) :
    Undisturbed S H { e with turns := e.turns ++ [Turn.start c.engine c.input c.action] } where
  owned := h.owned.started c
  settled := fun b => (h.settled b).started c
  keys := h.keys

end

/-! ### Runs -/

/-- The intent or the outcome of a turn could not be recorded. -/
def Note.loses : Note → Bool
  | .served (.intending _ _ _) (.error _) | .served (.recordingOutcome _ _ _) (.error _) => true
  | _ => false

/-- Every outcome that was to be recorded was. -/
def Unlost {σ : Type} (w : World σ) : Prop := ∀ o ∈ w.trace, o.what.loses = false

instance {σ : Type} (w : World σ) : Decidable (Unlost w) :=
  inferInstanceAs (Decidable (∀ o ∈ w.trace, o.what.loses = false))

theorem Unrecorded.loses {result : TurnResult} {st : Stage} {reply : st.Reply}
    (h : Unrecorded result st reply) : (Note.served st reply).loses = true := by
  cases h <;> rfl

structure Driven (S : HealthyStore) (H : Digest) (w : World S.State) : Prop where
  stages : ∀ (i : Nat) (x : Status), w.calls[i]? = some x → x.Driven w.process.engine.turns
  noted : ∀ (i : Nat) (st : Stage) (reply : st.Reply),
    w.calls[i]? = some (.answered st reply) → ⟨i, .served st reply⟩ ∈ w.trace
  wrote : ∀ (i : Nat) (n : Note) (commit : ActionCommit), ⟨i, n⟩ ∈ w.trace →
    n.appended? = some commit → ∃ st reply, n = .served st reply ∧ Wrote st commit
  engine : Unlost w → Undisturbed S H w.process.engine

section
variable {S : HealthyStore} {K : Kernel S.State} {w : World S.State}

/-- The engine of a world whose calls are driven and in which no outcome was lost. -/
theorem Driven.engine_step (hK : K.outbox.port = S.port) (h : Driven S K.digest w) {l : Label}
    (hl : l.drives = true) (hunlost : Unlost w) :
    Undisturbed S K.digest (w.step K l).process.engine := by
  have hengine := h.engine hunlost
  have hstep := step_engine K w l
  generalize (w.step K l).process.engine = e at hstep
  cases hstep with
  | same => exact hengine
  | moved =>
    rw [hK]
    exact hengine.moved _
  | started c => exact hengine.started c
  | rolledBack hcall hlost _ =>
    have hkept := hunlost _ (h.noted _ _ _ hcall)
    rw [hlost.loses] at hkept
    cases hkept
  | swept hcall _ =>
    obtain ⟨hstage, -⟩ := h.stages _ _ hcall
    cases hstage with
    | processing hq _ _ => cases hq

/-- The calls of another world, when one of them has changed. -/
theorem driven_set {turns turns' : List Turn} {calls : List Status} {i : Nat} {y : Status}
    (h : ∀ (j : Nat) (x : Status), calls[j]? = some x → x.Driven turns)
    (hcarries : Carries turns turns') (hy : y.Driven turns') :
    ∀ (j : Nat) (x : Status), (calls.set i y)[j]? = some x → x.Driven turns' := by
  intro j x hx
  by_cases hij : i = j
  · subst hij
    obtain ⟨hlt, -⟩ := List.getElem?_eq_some_iff.mp hx
    rw [List.length_set] at hlt
    rw [List.getElem?_set_self hlt] at hx
    cases hx
    exact hy
  · rw [List.getElem?_set_ne hij] at hx
    exact (h j x hx).carried hcarries

theorem driven_concat {turns turns' : List Turn} {calls : List Status} {y : Status}
    (h : ∀ (j : Nat) (x : Status), calls[j]? = some x → x.Driven turns)
    (hcarries : Carries turns turns') (hy : y.Driven turns') :
    ∀ (j : Nat) (x : Status), (calls ++ [y])[j]? = some x → x.Driven turns' := by
  intro j x hx
  by_cases hj : j < calls.length
  · rw [List.getElem?_append_left hj] at hx
    exact (h j x hx).carried hcarries
  · rw [List.getElem?_append_right (by omega)] at hx
    rw [List.mem_singleton.mp (List.mem_of_getElem? hx)]
    exact hy

/-- Where every call stands after a step. -/
theorem Driven.stages_step (h : Driven S K.digest w) {l : Label} (hl : l.drives = true) :
    ∀ (i : Nat) (x : Status), (w.step K l).calls[i]? = some x →
      x.Driven (w.step K l).process.engine.turns := by
  have hcarries := step_carries K w l
  have htaken := step_taken K w l
  generalize w.step K l = w' at htaken hcarries
  cases htaken with
  | idle => exact h.stages
  | called henter => exact driven_concat h.stages hcarries (enter_driven hl henter).1
  | @served i b st reply services hcall hanswer =>
    have hstage : st.Driven w.process.engine.turns := h.stages i _ hcall
    refine driven_set h.stages (carries_refl _) ⟨hstage, ?_⟩
    cases st with
    | turning a k =>
      cases reply with
      | ok result =>
        obtain ⟨-, t, ht, hinput, hconcerns⟩ := hstage.about rfl
        obtain ⟨t', ht', hended⟩ := answer_turn hanswer
        rw [ht] at ht'
        cases ht'
        rw [hended, hinput] at hconcerns
        exact hconcerns
      | error r => exact trivial
    | _ => exact trivial
  | resumed hcall =>
    obtain ⟨hstage, hreply⟩ := h.stages _ _ hcall
    exact driven_set h.stages hcarries (resume_driven hstage hreply)
  | startedTurn => cases hl
  | movedTurn => exact fun i x hx => (h.stages i x hx).carried hcarries
  | restarted _ => cases hl

/-- Every answer a call has is in the trace. -/
theorem Driven.noted_step (h : Driven S K.digest w) {l : Label} (hl : l.drives = true) :
    ∀ (i : Nat) (st : Stage) (reply : st.Reply),
      (w.step K l).calls[i]? = some (.answered st reply) →
      ⟨i, .served st reply⟩ ∈ (w.step K l).trace := by
  intro i st reply hx
  have htaken := step_taken K w l
  generalize w.step K l = w' at htaken hx
  cases htaken with
  | idle => exact h.noted i st reply hx
  | @called entry r henter =>
    have hcalls : (w.calls ++ [r.next.status])[i]? = some (.answered st reply) := hx
    by_cases hi : i < w.calls.length
    · rw [List.getElem?_append_left hi] at hcalls
      exact List.mem_append_left _ (h.noted i st reply hcalls)
    · rw [List.getElem?_append_right (by omega)] at hcalls
      have hnext := List.mem_singleton.mp (List.mem_of_getElem? hcalls)
      cases hn : r.next with
      | await st' =>
        rw [hn] at hnext
        cases hnext
      | «end» e =>
        rw [hn] at hnext
        cases hnext
  | @served j b st' reply' services hcall hanswer =>
    have hcalls : (w.calls.set j (.answered st' reply'))[i]? = some (.answered st reply) := hx
    by_cases hij : j = i
    · subst hij
      obtain ⟨hlt, -⟩ := List.getElem?_eq_some_iff.mp hcall
      rw [List.getElem?_set_self hlt] at hcalls
      cases hcalls
      exact List.mem_append_right _ List.mem_cons_self
    · rw [List.getElem?_set_ne hij] at hcalls
      exact List.mem_append_left _ (h.noted i st reply hcalls)
  | @resumed j m st' reply' hcall =>
    have hcalls : (w.calls.set j (resume K m w.process st' reply').next.status)[i]? =
        some (.answered st reply) := hx
    by_cases hij : j = i
    · subst hij
      obtain ⟨hlt, -⟩ := List.getElem?_eq_some_iff.mp hcall
      rw [List.getElem?_set_self hlt] at hcalls
      cases hn : (resume K m w.process st' reply').next with
      | await st'' =>
        rw [hn] at hcalls
        cases hcalls
      | «end» e =>
        rw [hn] at hcalls
        cases hcalls
    · rw [List.getElem?_set_ne hij] at hcalls
      exact List.mem_append_left _ (h.noted i st reply hcalls)
  | startedTurn => cases hl
  | movedTurn => exact h.noted i st reply hx
  | restarted _ => cases hl

/-- Who wrote what is in the log. -/
theorem Driven.wrote_step (h : Driven S K.digest w) {l : Label} (hl : l.drives = true) :
    ∀ (i : Nat) (n : Note) (commit : ActionCommit), ⟨i, n⟩ ∈ (w.step K l).trace →
      n.appended? = some commit → ∃ st reply, n = .served st reply ∧ Wrote st commit := by
  intro i n commit hmem hcommit
  have hquiet : ∀ (j : Nat) (notes : List Note), (∀ n ∈ notes, n.ofCall = true) →
      ⟨i, n⟩ ∈ w.trace ++ tagged j notes → ∃ st reply, n = .served st reply ∧ Wrote st commit := by
    intro j notes hnotes hmem
    rcases List.mem_append.mp hmem with hmem | hmem
    · exact h.wrote i n commit hmem hcommit
    · rw [appended?_ofCall (hnotes _ (who_of_mem_tagged hmem).2)] at hcommit
      cases hcommit
  have htaken := step_taken K w l
  generalize w.step K l = w' at htaken hmem
  cases htaken with
  | idle => exact h.wrote i n commit hmem hcommit
  | called henter => exact hquiet _ _ (enter_notes henter) hmem
  | @served j b st reply services hcall hanswer =>
    rcases List.mem_append.mp hmem with hmem | hmem
    · exact h.wrote i n commit hmem hcommit
    · obtain rfl : n = .served st reply := List.mem_singleton.mp (who_of_mem_tagged hmem).2
      have hstage : st.Driven w.process.engine.turns := h.stages j _ hcall
      exact ⟨st, reply, rfl, hstage.wrote (appended_ok hcommit).1⟩
  | resumed hcall => exact hquiet _ _ (resume_notes _ _ _ _) hmem
  | startedTurn => cases hl
  | movedTurn => exact h.wrote i n commit hmem hcommit
  | restarted _ => cases hl

theorem driven_step (hK : K.outbox.port = S.port) (h : Driven S K.digest w) {l : Label}
    (hl : l.drives = true) : Driven S K.digest (w.step K l) where
  stages := h.stages_step hl
  noted := h.noted_step hl
  wrote := h.wrote_step hl
  engine := by
    intro hunlost
    obtain ⟨new, htrace, -⟩ := step_journal K w l
    refine h.engine_step hK hl (fun o ho => hunlost o ?_)
    rw [htrace]
    exact List.mem_append_left _ ho

/-- **What is known of a world that is only driven**, from an empty dedupe store on. -/
theorem driven_run (hK : K.outbox.port = S.port) (journal : Journal) {store : S.State}
    (hstore : ∀ key, S.view store key = none) (labels : List Label)
    (hlabels : ∀ l ∈ labels, l.drives = true) :
    Driven S K.digest (run (World.step K) (World.fresh journal store) labels) := by
  have hfresh : Driven S K.digest (World.fresh journal store) := by
    refine ⟨(fun _ _ hx => nomatch hx), (fun _ _ _ hx => nomatch hx), (fun _ _ _ h => nomatch h), ?_⟩
    exact fun _ => ⟨owned_start store [], (fun _ _ _ _ hmem => nomatch hmem),
      fun key hkey => absurd (hstore key) hkey⟩
  exact run_invariant_of (I := Driven S K.digest) (A := fun l => l.drives = true)
    (fun _ l hl h => driven_step hK h hl) hfresh labels hlabels

end
end AgentKernel.Workflow
