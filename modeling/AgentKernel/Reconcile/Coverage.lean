import AgentKernel.Reconcile.Histories

/-! Which records a reconciliation pass reaches.

A pass over run `r` reaches the keys the store lists under `r`. The policy key of a
dispatch starts with its namespace and not with the run, so a pass over the run does not
list it; and the text before the first colon is not all of a run id, so a pass lists keys
of other runs. `reconcile_complete_iff` says when every open record of the run is found,
`reconcile_confined_iff` when no record of another run is. -/
namespace AgentKernel.Reconcile
open Lib Dedupe Turns

/-- A record that says nothing about what became of its dispatch. -/
def Open (r : DedupeRecord) : Prop := r.state = .reserved ∨ r.state = .dispatched

/-- The log holds the outcome of the dispatch: an event under its fingerprint. -/
def OutcomeLogged (H : Digest) (events : List RuntimeEvent) (c : Candidate) : Prop :=
  ∃ event ∈ events, event.idempotencyKey = some (c.identity H).decisionFingerprint

namespace History
variable (B : SoundOutbox) (H : Digest) (history : History)

/-- The ledger the process leaves behind. -/
def ledger : Ledger := B.view (history.store B H)

/-- The ledger after a pass over the run and its events. -/
def reconciled (events : List RuntimeEvent) (runId : String) : Ledger :=
  B.view ((reconcileLoaded B.store runId (.ok events)).after (history.store B H))

/-- A record made by a turn of the run that is open and has no outcome in the log. -/
structure Unsettled (events : List RuntimeEvent) (runId key : String) (r : DedupeRecord) : Prop where
  created : ∃ c, history.Created B H c key ∧ c.input.runId = runId ∧ ¬ OutcomeLogged H events c
  record : history.ledger B H key = some r
  isOpen : Open r

/-- A record made by a turn of another run. -/
structure Foreign (runId key : String) (r : DedupeRecord) : Prop where
  created : ∃ c, history.Created B H c key ∧ c.input.runId ≠ runId
  record : history.ledger B H key = some r

/-- What a pass over the run leaves of a record, and whether it acts on its key. -/
theorem reconciled_spec (events : List RuntimeEvent) (runId : String) :
    ∃ result, (reconcileLoaded B.store runId (.ok events)).outcome (history.store B H) = .ok result ∧
      (∀ key, key ∈ result.actions.map ReconciliationAction.idempotencyKey ↔
        B.lists runId key = true ∧
          ∃ r, history.ledger B H key = some r ∧ violationOf events runId key r ≠ none) ∧
      ∀ key, history.reconciled B H events runId key =
        if B.lists runId key = true ∧ key ∉ eventIdempotencyKeys events then
          (history.ledger B H key).map lost
        else history.ledger B H key := by
  have hinv := history.inv B H
  obtain ⟨result, s', hrun, _, hkeys, hview⟩ := B.sound.reconcileLoaded_spec events runId hinv
  obtain ⟨hout, hafter⟩ := Call.outcome_ok hrun
  refine ⟨result, hout, ?_, ?_⟩
  · intro key
    rw [hkeys, List.mem_map]
    constructor
    · intro hmem
      obtain ⟨v, hv, rfl⟩ := hmem
      obtain ⟨k, hk, r, hr, hviolation⟩ := mem_found_iff.mp hv
      rw [(violationOf_key hviolation).1, Option.getD_some]
      refine ⟨((B.sound.collects _ hinv runId k).mp hk).2, r, hr, ?_⟩
      rw [hviolation]
      exact Option.some_ne_none v
    · intro hmem
      obtain ⟨hlists, r, hr, hviolation⟩ := hmem
      obtain ⟨v, hv⟩ := Option.ne_none_iff_exists'.mp hviolation
      have hpresent : B.view (history.store B H) key ≠ none := by
        rw [show B.view (history.store B H) key = some r from hr]
        exact Option.some_ne_none r
      refine ⟨v, mem_found_iff.mpr ⟨key, ?_, r, hr, hv⟩, ?_⟩
      · exact (B.sound.collects _ hinv runId key).mpr ⟨hpresent, hlists⟩
      · rw [(violationOf_key hv).1, Option.getD_some]
  · intro key
    rw [reconciled, hafter]
    exact hview key

end History

/-! ### Completeness -/

theorem state_lost_of_open {r : DedupeRecord} (h : Open r) : (lost r).state = .unknownEffect := by
  unfold lost
  rcases h with h | h <;> rw [h]

theorem not_open_unknownEffect {r : DedupeRecord} (h : Open r) : r.state ≠ .unknownEffect := by
  rcases h with h | h <;> rw [h] <;> decide

/-- **A pass surfaces every unsettled record of its run exactly when each of their keys is
listed under the run and is no idempotency key of an event.** The turns, the crash point
and the log are arbitrary. -/
theorem reconcile_complete_iff (B : SoundOutbox) (H : Digest) (history : History)
    (events : List RuntimeEvent) (runId : String) :
    (∀ key r, history.Unsettled B H events runId key r →
      ∃ r', history.reconciled B H events runId key = some r' ∧ r'.state = .unknownEffect) ↔
    (∀ key r, history.Unsettled B H events runId key r →
      B.lists runId key = true ∧ key ∉ eventIdempotencyKeys events) := by
  obtain ⟨result, _, _, hview⟩ := history.reconciled_spec B H events runId
  constructor
  · intro hcomplete key r hunsettled
    by_contra hnot
    obtain ⟨r', hr', hstate⟩ := hcomplete key r hunsettled
    rw [hview key, if_neg hnot, hunsettled.record] at hr'
    cases hr'
    exact not_open_unknownEffect hunsettled.isOpen hstate
  · intro hlisted key r hunsettled
    refine ⟨lost r, ?_, state_lost_of_open hunsettled.isOpen⟩
    rw [hview key, if_pos (hlisted key r hunsettled), hunsettled.record]
    rfl

/-- A turn of run `run` whose process stops while the executor runs. -/
def stoppedTurn (runId : String) : History where
  calls := [Sample.call {} runId "act"]
  labels := List.replicate 7 ⟨0, Sample.ports Sample.acknowledged⟩
  stop := 3

/-- The legacy alias is found and the policy key is not: it stays dispatched. -/
theorem policy_key_not_reconciled :
    ¬ ∀ key r, (stoppedTurn "run").Unsettled InMemoryDedupeStore.outbox Sample.digest [] "run" key r →
      ∃ r', (stoppedTurn "run").reconciled InMemoryDedupeStore.outbox Sample.digest [] "run" key =
        some r' ∧ r'.state = .unknownEffect := by
  intro hcomplete
  have hcreated : ∃ c, (stoppedTurn "run").Created InMemoryDedupeStore.outbox Sample.digest c
      ("dispatch:run:act:" ++ Sample.contentHash) ∧ c.input.runId = "run" ∧
      ¬ OutcomeLogged Sample.digest [] c :=
    ⟨⟨Sample.input "run", Sample.action "run" "act", Sample.snapshot⟩,
      ⟨0, List.mem_of_getElem? (i := 3) rfl, List.mem_of_getElem? (i := 1) rfl⟩, rfl,
      fun hlogged => by obtain ⟨_, hmem, _⟩ := hlogged; cases hmem⟩
  obtain ⟨r', hr', hstate⟩ := hcomplete ("dispatch:run:act:" ++ Sample.contentHash) _
    ⟨hcreated, rfl, .inr rfl⟩
  have hkept : ∃ r, (stoppedTurn "run").reconciled InMemoryDedupeStore.outbox Sample.digest [] "run"
      ("dispatch:run:act:" ++ Sample.contentHash) = some r ∧ r.state = .dispatched := ⟨_, rfl, rfl⟩
  obtain ⟨r, hr, hdispatched⟩ := hkept
  rw [hr] at hr'
  cases hr'
  rw [hdispatched] at hstate
  cases hstate

/-! ### Confinement -/

/-- **A pass leaves the records of other runs alone exactly when every one of them that is
listed under its run has an event of its own, with evidence if the effect is unknown.** -/
theorem reconcile_confined_iff (B : SoundOutbox) (H : Digest) (history : History)
    (events : List RuntimeEvent) (runId : String) :
    (∃ result, (reconcileLoaded B.store runId (.ok events)).outcome (history.store B H) = .ok result ∧
      ∀ key r, history.Foreign B H runId key r →
        history.reconciled B H events runId key = some r ∧
          key ∉ result.actions.map ReconciliationAction.idempotencyKey) ↔
    (∀ key r, history.Foreign B H runId key r → B.lists runId key = true →
      key ∈ eventIdempotencyKeys events ∧
        (r.state = .unknownEffect → hasDispatchEvidence events key = true)) := by
  obtain ⟨result, hout, hactions, hview⟩ := history.reconciled_spec B H events runId
  have hclean : ∀ key r, violationOf events runId key r = none ↔
      key ∈ eventIdempotencyKeys events ∧
        (r.state = .unknownEffect → hasDispatchEvidence events key = true) := by
    intro key r
    unfold violationOf
    split
    · rename_i hkey
      simp [hkey]
    · rename_i hkey
      split
      · rename_i hevidence
        simp [hevidence.1, hevidence.2]
      · rename_i hevidence
        simp only [not_not] at hkey
        simpa [hkey] using hevidence
  constructor
  · intro hconfined key r hforeign hlists
    obtain ⟨result', hout', hkeep⟩ := hconfined
    rw [hout] at hout'
    cases hout'
    rw [← hclean key r]
    by_contra hviolation
    exact (hkeep key r hforeign).2 ((hactions key).mpr ⟨hlists, r, hforeign.record, hviolation⟩)
  · intro hcovered
    refine ⟨result, hout, fun key r hforeign => ⟨?_, ?_⟩⟩
    · rw [hview key, hforeign.record]
      split
      · rename_i horphan
        exact absurd (hcovered key r hforeign horphan.1).1 horphan.2
      · rfl
    · intro hmem
      obtain ⟨hlists, r', hr', hviolation⟩ := (hactions key).mp hmem
      rw [hforeign.record] at hr'
      cases hr'
      exact hviolation ((hclean key r).mpr (hcovered key r hforeign hlists))

/-- A pass over the parent downgrades the dispatch of its child run while it runs. -/
theorem child_run_reconciled :
    ¬ ∃ result, (reconcileLoaded InMemoryDedupeStore.outbox.store "run" (.ok [])).outcome
        ((stoppedTurn "run:child").store InMemoryDedupeStore.outbox Sample.digest) = .ok result ∧
      ∀ key r, (stoppedTurn "run:child").Foreign InMemoryDedupeStore.outbox Sample.digest "run" key r →
        (stoppedTurn "run:child").reconciled InMemoryDedupeStore.outbox Sample.digest [] "run" key =
          some r ∧ key ∉ result.actions.map ReconciliationAction.idempotencyKey := by
  intro hconfined
  obtain ⟨result, _, hkeep⟩ := hconfined
  have hcreated : ∃ c, (stoppedTurn "run:child").Created InMemoryDedupeStore.outbox Sample.digest c
      "run:child:act:1" ∧ c.input.runId ≠ "run" :=
    ⟨⟨Sample.input "run:child", Sample.action "run:child" "act", Sample.snapshot⟩,
      ⟨0, List.mem_of_getElem? (i := 3) rfl, List.mem_of_getElem? (i := 2) rfl⟩, by decide⟩
  have hkept := (hkeep "run:child:act:1" _ ⟨hcreated, rfl⟩).1
  have hlost : ∃ r, (stoppedTurn "run:child").reconciled InMemoryDedupeStore.outbox Sample.digest []
      "run" "run:child:act:1" = some r ∧ r.state = .unknownEffect := ⟨_, rfl, rfl⟩
  obtain ⟨r, hr, hstate⟩ := hlost
  rw [hr] at hkept
  cases hkept
  cases hstate

end AgentKernel.Reconcile
