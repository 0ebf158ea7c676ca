import AgentKernel.Workflow.Driven

/-! What the consistency checker says of runs in which nothing went wrong.

The checker wants an event of the run under every dedupe key the store lists for it. A
turn is dispatched under its policy key and its legacy key; its outcome event is written
under the decision fingerprint, which is neither. So a run in which every turn returned
and every outcome was recorded passes the audit exactly when the keys listed for it are
found elsewhere: in events a caller has written, or, by an accident of the texts, in the
fingerprint of another action (`no_alarm_iff`). -/
namespace AgentKernel.Workflow
open Lib Dedupe Turns Events Projection Reconcile

/-! ### Where events come from -/

section
variable {σ : Type}

/-- A caller has written such an event to the run. -/
def Supplied (w : World σ) (runId : String) (P : RuntimeEvent → Prop) : Prop :=
  ∃ i commit, ⟨i, .served (.writing commit) (.ok ())⟩ ∈ w.trace ∧ commit.runId = runId ∧
    ∃ e ∈ commit.events, P e

/-- An event of the run has the key: one that a caller has written, or the outcome of an
action with that fingerprint. -/
def Backed (w : World σ) (runId key : String) : Prop :=
  Supplied w runId (fun e => e.idempotencyKey = some key) ∨
    ∃ i a result commit, ⟨i, .served (.recordingOutcome a result commit) (.ok ())⟩ ∈ w.trace ∧
      a.processing.commit.runId = runId ∧ a.fingerprint = key

/-- A caller has written an event that says that the key was dispatched. -/
def Evidenced (w : World σ) (runId key : String) : Prop :=
  Supplied w runId (fun e => e.idempotencyKey = some key ∧ e.eventType ∈ dispatchEvidence)

/-- The log has an event for every listed key a turn was dispatched under, and evidence of
the dispatch where the executor did not acknowledge. -/
def Explained (H : Digest) (w : World σ) (runId : String) : Prop :=
  ∀ k c key, ⟨k, .dispatched c⟩ ∈ w.process.engine.trace → (key = c.policyKey H ∨ key = c.legacyKey) →
    Text.startsWith key (runId ++ ":") = true →
    Backed w runId key ∧ ((∃ a, ⟨k, .executed c a⟩ ∈ w.process.engine.trace ∧ Acknowledges a false) →
      Evidenced w runId key)

end

theorem mem_appendedCommits {trace : List (Tagged Nat Note)} {commit : ActionCommit} :
    commit ∈ appendedCommits trace ↔ ∃ i n, ⟨i, n⟩ ∈ trace ∧ n.appended? = some commit := by
  unfold appendedCommits
  rw [List.mem_filterMap]
  constructor
  · intro h
    obtain ⟨o, ho, hcommit⟩ := h
    exact ⟨o.who, o.what, ho, hcommit⟩
  · intro h
    obtain ⟨i, n, hmem, hcommit⟩ := h
    exact ⟨⟨i, n⟩, hmem, hcommit⟩

section
variable {S : HealthyStore} {H : Digest} {w : World S.State} {runId : String}

/-- An event of the log was written by a caller, or is the outcome of an action; recovery
events carry no key. -/
theorem Driven.exists_load (h : Driven S H w)
    (hlog : w.services.journal = run Journal.append Journal.empty (appendedCommits w.trace))
    {P : RuntimeEvent → Prop} (hP : ∀ e offset, P { e with commitOffset := offset } ↔ P e)
    (hkeyed : ∀ e, P e → e.idempotencyKey ≠ none) :
    (∃ e ∈ w.services.journal.load runId 0, P e) ↔
      Supplied w runId P ∨
        ∃ i a result offset now, ⟨i, .served (.recordingOutcome a result
            (turnOutcomeCommit a.processing.commit.runId offset result a.action.actionId now))
            (.ok ())⟩ ∈ w.trace ∧
          a.processing.commit.runId = runId ∧ result.decisionFingerprint = a.fingerprint ∧
          ∃ e ∈ (turnOutcomeCommit a.processing.commit.runId offset result a.action.actionId
            now).events, P e := by
  have hempty : ¬ ∃ e ∈ Journal.empty.eventsOf runId, P e := by
    intro hno
    obtain ⟨e, he, -⟩ := hno
    cases he
  rw [Journal.load_zero, hlog, Journal.exists_eventsOf_run hP]
  constructor
  · intro hfound
    rcases hfound with hfound | ⟨commit, hmem, hrun, hevent⟩
    · exact absurd hfound hempty
    · obtain ⟨i, n, hnote, hcommit⟩ := mem_appendedCommits.mp hmem
      obtain ⟨st, reply, rfl, hwrote⟩ := h.wrote i n commit hnote hcommit
      cases hwrote with
      | caller =>
        obtain ⟨-, u, rfl⟩ := appended_ok hcommit
        exact .inl ⟨i, commit, hnote, hrun, hevent⟩
      | outcome hfingerprint hshape =>
        obtain ⟨-, u, rfl⟩ := appended_ok hcommit
        subst hshape
        exact .inr ⟨i, _, _, _, _, hnote, hrun, hfingerprint, hevent⟩
      | recovery hshape =>
        subst hshape
        obtain ⟨e, he, hp⟩ := hevent
        refine absurd ?_ (hkeyed e hp)
        rcases List.mem_cons.mp he with rfl | he
        · rfl
        · rw [List.mem_singleton.mp he]
  · intro hfound
    refine .inr ?_
    rcases hfound with ⟨i, commit, hnote, hrun, hevent⟩ |
      ⟨i, a, result, offset, now, hnote, hrun, -, hevent⟩
    · exact ⟨commit, mem_appendedCommits.mpr ⟨i, _, hnote, rfl⟩, hrun, hevent⟩
    · exact ⟨_, mem_appendedCommits.mpr ⟨i, _, hnote, rfl⟩, hrun, hevent⟩

theorem mem_eventIdempotencyKeys {events : List RuntimeEvent} {key : String} :
    key ∈ eventIdempotencyKeys events ↔ ∃ e ∈ events, e.idempotencyKey = some key ∧ key ≠ "" := by
  unfold eventIdempotencyKeys
  rw [List.mem_filterMap]
  simp only [Text.orElse_none_iff]

theorem hasDispatchEvidence_iff {events : List RuntimeEvent} {key : String} :
    hasDispatchEvidence events key = true ↔
      ∃ e ∈ events, (e.idempotencyKey = some key ∧ key ≠ "") ∧ e.eventType ∈ dispatchEvidence := by
  unfold hasDispatchEvidence foundTypes
  simp only [List.any_eq_true, List.mem_dedup, List.mem_map, List.mem_filter, decide_eq_true_eq,
    Text.orElse_none_iff]
  constructor
  · intro h
    obtain ⟨_, ⟨e, ⟨he, hkey, -⟩, rfl⟩, htype⟩ := h
    exact ⟨e, he, hkey, htype⟩
  · intro h
    obtain ⟨e, he, hkey, htype⟩ := h
    refine ⟨_, ⟨e, ⟨he, hkey, ?_⟩, rfl⟩, htype⟩
    intro hnone
    rw [hnone] at htype
    exact absurd htype (by decide)

/-- **The keys of the log.** -/
theorem Driven.backed_iff (h : Driven S H w)
    (hlog : w.services.journal = run Journal.append Journal.empty (appendedCommits w.trace))
    {key : String} (hkey : key ≠ "") :
    key ∈ eventIdempotencyKeys (w.services.journal.load runId 0) ↔ Backed w runId key := by
  rw [mem_eventIdempotencyKeys]
  rw [h.exists_load hlog (P := fun e => e.idempotencyKey = some key ∧ key ≠ "") (fun _ _ => Iff.rfl)
    (fun e he => by rw [he.1]; exact Option.some_ne_none key)]
  simp only [Backed, Supplied, hkey, ne_eq, not_false_eq_true, and_true]
  refine or_congr_right ⟨?_, ?_⟩
  · intro hfound
    obtain ⟨i, a, result, offset, now, hnote, hrun, hfingerprint, e, he, hek⟩ := hfound
    refine ⟨i, a, result, _, hnote, hrun, ?_⟩
    rw [List.mem_singleton.mp he] at hek
    rw [← hfingerprint]
    exact Option.some.inj hek
  · intro hfound
    obtain ⟨i, a, result, commit, hnote, hrun, hfp⟩ := hfound
    obtain ⟨st, reply, hserved, hwrote⟩ := h.wrote i _ commit hnote rfl
    cases hserved
    cases hwrote with
    | outcome hfingerprint hshape =>
      subst hshape
      refine ⟨i, a, result, _, _, hnote, hrun, hfingerprint, _, List.mem_singleton_self _, ?_⟩
      show some result.decisionFingerprint = some key
      rw [hfingerprint, hfp]

/-- The outcome events are no evidence of a dispatch. -/
theorem Driven.evidenced_iff (h : Driven S H w)
    (hlog : w.services.journal = run Journal.append Journal.empty (appendedCommits w.trace))
    {key : String} (hkey : key ≠ "") :
    hasDispatchEvidence (w.services.journal.load runId 0) key = true ↔ Evidenced w runId key := by
  rw [hasDispatchEvidence_iff]
  rw [h.exists_load hlog
    (P := fun e => (e.idempotencyKey = some key ∧ key ≠ "") ∧ e.eventType ∈ dispatchEvidence)
    (fun _ _ => Iff.rfl) (fun e he => by rw [he.1.1]; exact Option.some_ne_none key)]
  simp only [Evidenced, Supplied, hkey, ne_eq, not_false_eq_true, and_true]
  refine or_iff_left ?_
  intro hfound
  obtain ⟨i, a, result, offset, now, -, -, -, e, he, -, htype⟩ := hfound
  rw [List.mem_singleton.mp he] at htype
  have hnone : ∀ kind, turnOutcomeEventType kind ∉ dispatchEvidence := by
    intro kind
    cases kind <;> decide
  exact hnone _ htype

end

/-! ### The audit -/

theorem violationOf_none_iff {events : List RuntimeEvent} {runId key : String} {r : DedupeRecord} :
    violationOf events runId key r = none ↔ key ∈ eventIdempotencyKeys events ∧
      (r.state = .unknownEffect → hasDispatchEvidence events key = true) := by
  unfold violationOf
  by_cases hkey : key ∈ eventIdempotencyKeys events
  · simp only [hkey, not_true, if_false, true_and]
    by_cases hunknown : r.state = .unknownEffect
    · cases hasDispatchEvidence events key <;> simp [hunknown]
    · simp [hunknown]
  · simp [hkey]

/-- The audit of a run reports nothing, and a reconciliation pass changes no record. -/
structure NoAlarm (K : Kernel InMemoryDedupeStore) (w : World InMemoryDedupeStore) (runId : String) :
    Prop where
  report : ∃ report, (verifyLoaded K.outbox runId (.ok (w.services.journal.load runId 0))).outcome
    w.process.engine.store = .ok report ∧ report.violations = []
  unchanged : ∀ key, InMemoryDedupeStore.view ((reconcileLoaded K.outbox runId
      (.ok (w.services.journal.load runId 0))).after w.process.engine.store) key =
    InMemoryDedupeStore.view w.process.engine.store key

section
variable {K : Kernel InMemoryDedupeStore} {w : World InMemoryDedupeStore} {runId : String}

/-- The audit is quiet when every listed key has its events. -/
theorem noAlarm_iff (hK : K.outbox = InMemoryDedupeStore.outboxStore) :
    NoAlarm K w runId ↔ ∀ key r, InMemoryDedupeStore.view w.process.engine.store key = some r →
      Text.startsWith key (runId ++ ":") = true →
      key ∈ eventIdempotencyKeys (w.services.journal.load runId 0) ∧
        (r.state = .unknownEffect →
          hasDispatchEvidence (w.services.journal.load runId 0) key = true) := by
  have hsound := InMemoryDedupeStore.outbox.sound
  obtain ⟨report, s', hverify, -, hfound, -, -⟩ := hsound.verifyLoaded_eval
    (w.services.journal.load runId 0) runId (s := w.process.engine.store) trivial
  obtain ⟨result, s'', hpass, -, -, hview⟩ := hsound.reconcileLoaded_spec
    (w.services.journal.load runId 0) runId (s := w.process.engine.store) trivial
  have hlisted := hsound.collects w.process.engine.store trivial runId
  constructor
  · intro hquiet key r hr hprefix
    obtain ⟨report', hreport', hnone⟩ := hquiet.report
    rw [hK] at hreport'
    obtain rfl : report = report' :=
      Except.ok.inj ((Call.outcome_ok hverify).1.symm.trans hreport')
    rw [hnone] at hfound
    have hkey := List.filterMap_eq_nil_iff.mp hfound.symm key
      ((hlisted key).mpr ⟨by rw [show InMemoryDedupeStore.outbox.view _ key = some r from hr]; simp,
        hprefix⟩)
    rw [show InMemoryDedupeStore.outbox.view _ key = some r from hr, Option.bind_some] at hkey
    exact violationOf_none_iff.mp hkey
  · intro hall
    refine ⟨⟨report, by rw [hK]; exact (Call.outcome_ok hverify).1, ?_⟩, ?_⟩
    · rw [hfound]
      refine List.filterMap_eq_nil_iff.mpr (fun key hkey => ?_)
      obtain ⟨hpresent, hprefix⟩ := (hlisted key).mp hkey
      obtain ⟨r, hr⟩ := Option.ne_none_iff_exists'.mp hpresent
      rw [hr, Option.bind_some]
      exact violationOf_none_iff.mpr (hall key r hr hprefix)
    · intro key
      have hafter : (reconcileLoaded K.outbox runId (.ok (w.services.journal.load runId 0))).after
          w.process.engine.store = s'' := by
        rw [hK]
        exact (Call.outcome_ok hpass).2
      rw [hafter]
      refine (hview key).trans ?_
      cases hr : InMemoryDedupeStore.view w.process.engine.store key with
      | none =>
        rw [show InMemoryDedupeStore.outbox.view _ key = none from hr]
        simp
      | some r =>
        rw [show InMemoryDedupeStore.outbox.view _ key = some r from hr]
        refine if_neg ?_
        intro hhit
        exact hhit.2 (hall key r hr hhit.1).1

end

/-- A dispatched turn that has returned was answered by its executor. -/
theorem Books.answered {S : HealthyStore} {H : Digest} {e : System S.State} (h : Books S H e) {k : Nat}
    {t : Turn} {result : TurnResult} (ht : e.turns[k]? = some t)
    (hreturned : t.progress = .finished (.returned result)) {c : Candidate}
    (hc : ⟨k, .dispatched c⟩ ∈ e.trace) :
    ∃ a b, ⟨k, .executed c a⟩ ∈ e.trace ∧ Acknowledges a b := by
  have hturn := h.turns k t ht
  rw [hreturned] at hturn
  obtain ⟨a, ha⟩ := hturn.recorded.executed_of_dispatched (mem_historyOf.mpr hc)
  obtain ⟨-, b, hb, -⟩ := hturn.concluded result c a rfl ha
  exact ⟨a, b, mem_historyOf.mp ha, hb⟩

/-- A turn ends one execution. -/
theorem Books.executed_unique {S : HealthyStore} {H : Digest} {e : System S.State} (h : Books S H e)
    {k : Nat} {c c' : Candidate} {a a' : Awaited ExecuteResult} (ha : ⟨k, .executed c a⟩ ∈ e.trace)
    (ha' : ⟨k, .executed c' a'⟩ ∈ e.trace) : a = a' := by
  cases ht : e.turns[k]? with
  | none =>
    have hsilent := mem_historyOf.mpr ha
    rw [h.within k ht] at hsilent
    cases hsilent
  | some t => exact (h.turns k t ht).recorded.executed_once (mem_historyOf.mpr ha) (mem_historyOf.mpr ha')

theorem not_empty_of_startsWith {key runId : String} (h : Text.startsWith key (runId ++ ":") = true) :
    key ≠ "" := by
  intro hempty
  subst hempty
  have hprefix := List.isPrefixOf_iff_prefix.mp h
  have hlength := hprefix.length_le
  simp at hlength

/-- **The audit of a run in which nothing went wrong is quiet exactly when the log explains
the listed keys.** Over in-memory stores that start empty, for every sequence of commits
that are written and processed, in any interleaving, in which every turn has returned and
no outcome could not be recorded. -/
theorem no_alarm_iff (K : Kernel InMemoryDedupeStore)
    (hK : K.outbox = InMemoryDedupeStore.outboxStore) (labels : List Label)
    (hlabels : ∀ l ∈ labels, l.drives = true) (runId : String) :
    let w := run (World.step K) (World.fresh Journal.empty Dict.empty) labels
    (∀ t ∈ w.process.engine.turns, ∃ result, t.progress = .finished (.returned result)) →
    Unlost w → (NoAlarm K w runId ↔ Explained K.digest w runId) := by
  intro w hreturned hunlost
  have hport : K.outbox.port = InMemoryDedupeStore.healthy.port := by rw [hK]; rfl
  have hdriven : Driven InMemoryDedupeStore.healthy K.digest w :=
    driven_run (S := InMemoryDedupeStore.healthy) (K := K) hport Journal.empty (fun _ => rfl) labels
      hlabels
  have hbooks : Books InMemoryDedupeStore.healthy K.digest w.process.engine :=
    books_run (S := InMemoryDedupeStore.healthy) (K := K) hport Journal.empty Dict.empty labels
  have hlog := journal_of_trace K Journal.empty Dict.empty labels
  have hengine := hdriven.engine hunlost
  -- A dispatched turn has been answered, and both its records say how.
  have hanswered : ∀ k c, ⟨k, .dispatched c⟩ ∈ w.process.engine.trace →
      ∃ a b, ⟨k, .executed c a⟩ ∈ w.process.engine.trace ∧ Acknowledges a b ∧
        Settled InMemoryDedupeStore.healthy K.digest w.process.engine k c b := by
    intro k c hc
    cases ht : w.process.engine.turns[k]? with
    | none =>
      have hsilent := mem_historyOf.mpr hc
      rw [hbooks.within k ht] at hsilent
      cases hsilent
    | some t =>
      obtain ⟨result, hresult⟩ := hreturned t (List.mem_of_getElem? ht)
      obtain ⟨a, b, ha, hb⟩ := hbooks.answered ht hresult hc
      exact ⟨a, b, ha, hb, hengine.settled b k c a ha hb⟩
  have hstate : ∀ {c : Candidate} {k : Nat} {b : Bool} {key : String},
      Settled InMemoryDedupeStore.healthy K.digest w.process.engine k c b →
      (key = c.policyKey K.digest ∨ key = c.legacyKey) →
      HasState (InMemoryDedupeStore.view w.process.engine.store) key (stateFor b) := by
    intro c k b key hsettled hkey
    rcases hkey with rfl | rfl
    · exact hsettled.policy
    · exact hsettled.legacy
  rw [noAlarm_iff hK]
  constructor
  · intro hall k c key hc hkey hprefix
    obtain ⟨a, b, ha, hb, hsettled⟩ := hanswered k c hc
    obtain ⟨r, hr, hrstate⟩ := hstate hsettled hkey
    obtain ⟨hbacked, hevidence⟩ := hall key r hr hprefix
    have hne := not_empty_of_startsWith hprefix
    refine ⟨(hdriven.backed_iff hlog hne).mp hbacked, ?_⟩
    intro hno
    obtain ⟨a', ha', hfalse⟩ := hno
    obtain rfl := hbooks.executed_unique ha ha'
    obtain rfl := hb.unique hfalse
    exact (hdriven.evidenced_iff hlog hne).mp (hevidence hrstate)
  · intro hexplained key r hr hprefix
    have hne := not_empty_of_startsWith hprefix
    obtain ⟨k, c, hc, hkey⟩ := hengine.keys key (by
      show InMemoryDedupeStore.view _ key ≠ none
      rw [hr]
      exact Option.some_ne_none r)
    obtain ⟨hbacked, hevidence⟩ := hexplained k c key hc hkey hprefix
    refine ⟨(hdriven.backed_iff hlog hne).mpr hbacked, ?_⟩
    intro hunknown
    obtain ⟨a, b, ha, hb, hsettled⟩ := hanswered k c hc
    obtain ⟨r', hr', hrstate⟩ := hstate hsettled hkey
    rw [hr] at hr'
    cases hr'
    rw [hunknown] at hrstate
    cases b with
    | true => cases hrstate
    | false => exact (hdriven.evidenced_iff hlog hne).mpr (hevidence ⟨a, ha, hb⟩)

namespace Sample

/-- The sample commit, with the legacy key of its own action under its event. -/
def keyedCommit : ActionCommit :=
  { actionCommit with
    events := [{ factEvent "run" "run.ready" 1 none with idempotencyKey := some "run:act:1" }] }

/-- A commit is written and processed, and its executor acknowledges. -/
def audited (commit : ActionCommit) : List Label :=
  .call (.write commit) :: (awaits 0 1 ++ .call (.processActionCommit commit) ::
    (turned Turns.Sample.acknowledged ++ awaits 1 1))

def auditedWorld (commit : ActionCommit) : World InMemoryDedupeStore :=
  run (World.step kernel) (World.fresh Journal.empty Dict.empty) (audited commit)

end Sample

/-- A caller that writes the legacy key of its own action is not alarmed. -/
theorem keyed_commit_audited : NoAlarm Sample.kernel (Sample.auditedWorld Sample.keyedCommit) "run" := by
  have hturns : ∃ t result, (Sample.auditedWorld Sample.keyedCommit).process.engine.turns = [t] ∧
      t.progress = .finished (.returned result) := ⟨_, _, rfl, rfl⟩
  obtain ⟨t, result, hturns, hreturned⟩ := hturns
  refine (no_alarm_iff Sample.kernel rfl (Sample.audited Sample.keyedCommit) (by decide) "run" ?_
    (by decide)).mpr ?_
  · intro t' ht'
    have hmem : t' ∈ (Sample.auditedWorld Sample.keyedCommit).process.engine.turns := ht'
    rw [hturns] at hmem
    rw [List.mem_singleton.mp hmem]
    exact ⟨result, hreturned⟩
  · have htrace : ∃ r k₁ k₂ c call a,
        (Sample.auditedWorld Sample.keyedCommit).process.engine.trace =
          [⟨0, .admission r⟩, ⟨0, .reservation k₁ true⟩, ⟨0, .reservation k₂ true⟩,
            ⟨0, .dispatched c⟩, ⟨0, .execute c call⟩, ⟨0, .executed c a⟩] ∧
        Text.startsWith (c.policyKey Turns.Sample.digest) "run:" = false ∧
        c.legacyKey = "run:act:1" ∧ Acknowledges a true :=
      ⟨_, _, _, _, _, _, rfl, rfl, rfl, ⟨_, rfl, rfl⟩⟩
    obtain ⟨r, k₁, k₂, c, call, a, htrace, hpolicy, hlegacy, hack⟩ := htrace
    intro k c' key hc hkey hprefix
    have hc' : ⟨k, .dispatched c'⟩ ∈ (Sample.auditedWorld Sample.keyedCommit).process.engine.trace := hc
    rw [htrace] at hc'
    obtain ⟨rfl, rfl⟩ : k = 0 ∧ c' = c := by simpa using hc'
    rcases hkey with rfl | rfl
    · have hlisted : Text.startsWith (c'.policyKey Turns.Sample.digest) "run:" = true := hprefix
      rw [hpolicy] at hlisted
      cases hlisted
    · rw [hlegacy]
      refine ⟨.inl ⟨0, Sample.keyedCommit, List.mem_of_getElem? (i := 0) rfl, rfl, _,
        List.mem_singleton_self _, rfl⟩, ?_⟩
      intro hno
      obtain ⟨a', ha', hfalse⟩ := hno
      have hexecuted : ⟨0, .executed c' a'⟩ ∈
          (Sample.auditedWorld Sample.keyedCommit).process.engine.trace := ha'
      rw [htrace] at hexecuted
      obtain rfl : a' = a := by simpa using hexecuted
      cases hack.unique hfalse

/-- The legacy key of an acknowledged action is reported as an orphan. -/
theorem recorded_action_alarms :
    (∀ l ∈ Sample.audited Sample.actionCommit, l.drives = true) ∧
      (∃ t result, (Sample.auditedWorld Sample.actionCommit).process.engine.turns = [t] ∧
        t.progress = .finished (.returned result)) ∧
      Unlost (Sample.auditedWorld Sample.actionCommit) ∧
      ¬ NoAlarm Sample.kernel (Sample.auditedWorld Sample.actionCommit) "run" := by
  refine ⟨by decide, ⟨_, _, rfl, rfl⟩, by decide, ?_⟩
  intro hquiet
  obtain ⟨report, hreport, hnone⟩ := hquiet.report
  have hcount : ((verifyLoaded Sample.kernel.outbox "run"
      (.ok ((Sample.auditedWorld Sample.actionCommit).services.journal.load "run" 0))).outcome
      (Sample.auditedWorld Sample.actionCommit).process.engine.store).map
        (fun report => report.violations.length) = .ok 1 := rfl
  rw [hreport] at hcount
  have hlength : report.violations.length = 1 := Except.ok.inj hcount
  rw [hnone] at hlength
  cases hlength

end AgentKernel.Workflow
