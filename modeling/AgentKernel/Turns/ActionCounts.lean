import AgentKernel.Persistence.Counting
import AgentKernel.Turns.Effects

/-! What `count_by_run` makes of the turns of a run.

A dispatch takes two keys: `dispatch:{run}:{action}:{hash}`, which does not start with the run, and
`{run}:{action}:{offset}`, which does. The count is of keys, so it is the number of dispatched
turns as long as no first key and no key of another run happens to start like the run
(`action_counts_iff`). -/
namespace AgentKernel.Turns
open Lib Dedupe Persistence

/-! ### Counting -/

/-- The keys a step has reserved. -/
def reservedKeys (happened : List Happening) : List String :=
  happened.filterMap (fun h =>
    match h with
    | .reservation key true => some key
    | _ => none)

/-- The runs a step has dispatched for. -/
def dispatchedRuns (happened : List Happening) : List String :=
  happened.filterMap (fun h =>
    match h with
    | .dispatched c => some c.input.runId
    | _ => none)

def happenings (trace : List Observation) : List Happening := trace.map Tagged.what

/-- The turns of the run that were dispatched. -/
def dispatchedTurns (runId : String) (trace : List Observation) : Nat :=
  (dispatchedRuns (happenings trace)).count runId

/-- `count_by_run`, which `query_run_postmortem` reports as `total_action_count`, is the number of
turns of the run that were dispatched. -/
def CountsDispatches (S : CountingStore) (runId : String) (w : System S.State) : Prop :=
  (S.port.countByRun runId).outcome w.store = .ok (some (dispatchedTurns runId w.trace))

/-- A turn that is about to be dispatched, both of its keys being free, adds one to the count of its
run and nothing to that of another, and the run can be counted for. Without a record, which an
idempotent write does without, it must be of another run. -/
def CountedOnce (S : CountingStore) (H : Digest) (runId : String) (w : System S.State) (l : Label) :
    Prop :=
  ∀ t c admission policy, w.turns[l.turn]? = some t → t.progress = .dedupe c admission policy →
    S.view w.store c.legacyKey = none → S.view w.store (c.policyKey H) = none →
      (S.holds (dedupeEnvelope H c admission policy).attemptSeq →
        S.countable runId ∧ S.counts runId (c.policyKey H) = false ∧
          (S.counts runId c.legacyKey = true → c.input.runId = runId)) ∧
      (¬ S.holds (dedupeEnvelope H c admission policy).attemptSeq →
        c.action.effectClass = .idempotentWrite → c.input.runId ≠ runId)

/-! ### What a step adds -/

/-- The step reserves nothing and dispatches nothing. -/
def Move.Uncounted (m : Move) : Prop :=
  reservedKeys m.happened = [] ∧ dispatchedRuns m.happened = []

theorem Move.Early.uncounted {m : Move} (h : m.Early) : m.Uncounted := by
  rw [Move.Uncounted, h.1]
  exact ⟨rfl, rfl⟩

theorem putBoth_present_iff (H : Digest) (c : Candidate) (L : Ledger) (r r' : DedupeRecord)
    (key : String) :
    putBoth H c L r r' key ≠ none ↔ L key ≠ none ∨ key = c.policyKey H ∨ key = c.legacyKey := by
  by_cases hl : key = c.legacyKey
  · simp [hl, putBoth_legacyKey]
  · by_cases hp : key = c.policyKey H
    · simp [hp, putBoth_policyKey]
    · simp [hl, hp, putBoth_other hp hl]

section
variable {S : CountingStore} {H : Digest} {t : Turn} {s : S.State}

/-- What the dedupe phase does to the count, by what the store shows of the turn's two keys. -/
inductive Taken (S : CountingStore) (H : Digest) (s : S.State) (c : Candidate) (a : AdmissionValue)
    (policy : DispatchPolicy) (m : Move) (s' : S.State) : Prop where
  | blocked (known : S.view s c.legacyKey ≠ none ∨ S.view s (c.policyKey H) ≠ none)
    (uncounted : m.Uncounted) (keys : S.view s' = S.view s)
  | recorded (legacy : S.view s c.legacyKey = none) (free : S.view s (c.policyKey H) = none)
    (held : S.holds (dedupeEnvelope H c a policy).attemptSeq)
    (reserved : reservedKeys m.happened = [c.policyKey H, c.legacyKey])
    (runs : dispatchedRuns m.happened = [c.input.runId])
    (keys : ∀ key, S.view s' key ≠ none ↔
      S.view s key ≠ none ∨ key = c.policyKey H ∨ key = c.legacyKey)
  | unrecorded (legacy : S.view s c.legacyKey = none) (free : S.view s (c.policyKey H) = none)
    (unheld : ¬ S.holds (dedupeEnvelope H c a policy).attemptSeq)
    (reserved : reservedKeys m.happened = [])
    (runs : dispatchedRuns m.happened =
      if c.action.effectClass = .idempotentWrite then [c.input.runId] else [])
    (keys : S.view s' = S.view s)

/-- **The dedupe phase counts as it records.** -/
theorem phaseDedupe_taken (hs : S.Inv s) (c : Candidate) (a : AdmissionValue)
    (policy : DispatchPolicy) :
    ∃ m s', guarded t (phaseDedupe S.port H t c a policy) s = .ok m s' ∧ S.Inv s' ∧
      Taken S H s c a policy m s' := by
  have hguarded : ∀ {m : Move} {s' : S.State}, phaseDedupe S.port H t c a policy s = .ok m s' →
      guarded t (phaseDedupe S.port H t c a policy) s = .ok m s' := by
    intro m s' h
    simp only [guarded, Call.tryCatch_apply, h]
  obtain ⟨s₁, hget, hview₁, hs₁⟩ := CountingStore.get_eval hs c.legacyKey
  have hlookup := legacyLookup_eval S.port H c hget
  cases hlegacy : S.view s c.legacyKey with
  | some rec =>
    rw [hlegacy] at hlookup
    exact ⟨_, s₁, hguarded (phaseDedupe_knownLegacy S.port H t c a policy hlookup), hs₁,
      .blocked (.inl (by simp [hlegacy])) ⟨rfl, rfl⟩ hview₁⟩
  | none =>
    rw [hlegacy] at hlookup
    have hkey := dedupeEnvelope_key H c a policy
    cases hpolicy : S.view s (c.policyKey H) with
    | some rec =>
      have hknown : S.view s₁ (dedupeEnvelope H c a policy).dispatchIdempotencyKey = some rec := by
        rw [hkey, hview₁, hpolicy]
      obtain ⟨s₂, hreserve, hview₂, hs₂⟩ := CountingStore.reserve_present hs₁ hknown none
      exact ⟨_, s₂, hguarded (phaseDedupe_refused S.port H t c a policy hlookup hreserve), hs₂,
        .blocked (.inr (by simp [hpolicy])) ⟨rfl, rfl⟩ (hview₂.trans hview₁)⟩
    | none =>
      have hnew : S.view s₁ (dedupeEnvelope H c a policy).dispatchIdempotencyKey = none := by
        rw [hkey, hview₁, hpolicy]
      by_cases hheld : S.holds (dedupeEnvelope H c a policy).attemptSeq
      · obtain ⟨s₂, hreserve, hview₂, hs₂⟩ := CountingStore.reserve_absent hs₁ hnew hheld none
        rw [hkey, hview₁] at hview₂
        have hfree : S.view s₂ (legacyEnvelope c
            (dedupeEnvelope H c a policy)).dispatchIdempotencyKey = none := by
          show S.view s₂ c.legacyKey = none
          rw [hview₂, Ledger.put_apply, if_neg (c.legacyKey_ne_policyKey H), hlegacy]
        obtain ⟨s₃, hmirror, hview₃, hs₃⟩ := CountingStore.reserve_absent hs₂ hfree hheld
          (dedupeEnvelope H c a policy).peerOperationId
        refine ⟨_, s₃, hguarded (phaseDedupe_accepted S.port H t c a policy hlookup hreserve hmirror),
          hs₃, .recorded hlegacy hpolicy hheld ?_ ?_ (fun key => ?_)⟩
        · simp only [dispatchAccepted, reservationHappened_answered]
          rfl
        · simp only [dispatchAccepted, reservationHappened_answered]
          rfl
        · rw [hview₃, hview₂]
          exact putBoth_present_iff H c (S.view s) _ _ key
      · obtain ⟨e, s₂, hreserve, hview₂, hs₂⟩ := S.refuses _ none s₁ hs₁ hnew hheld
        have hraised := phaseDedupe_raised S.port H t c a policy hlookup hreserve
        by_cases heffect : c.action.effectClass = .idempotentWrite
        · rw [if_neg (by simp [heffect])] at hraised
          exact ⟨_, s₂, hguarded hraised, hs₂, .unrecorded hlegacy hpolicy hheld rfl
            (by rw [if_pos heffect]; rfl) (hview₂.trans hview₁)⟩
        · rw [if_pos heffect] at hraised
          refine ⟨.raise t.events (.exception e), s₂, ?_, hs₂, .unrecorded hlegacy hpolicy hheld rfl
            (by rw [if_neg heffect]; rfl) (hview₂.trans hview₁)⟩
          simp only [guarded, Call.tryCatch_apply, hraised]
          rfl

/-- A call that counts nothing and leaves the keys of the store as they are. -/
structure Steady (S : CountingStore) (x : Call PyError S.State Move) : Prop where
  yields : Call.Yields Move.Uncounted x
  preserves : ∀ keys, Call.Preserves (CountingStore.Holding S keys) x

theorem steady_pure {m : Move} (h : m.Uncounted) : Steady S (pure m) :=
  ⟨Call.yields_pure h, fun _ => Call.preserves_pure m⟩

theorem Steady.guarded {x : Call PyError S.State Move} (h : Steady S x) (t : Turn) :
    Steady S (guarded t x) :=
  ⟨h.yields.tryCatch (fun _ => Call.yields_pure ⟨rfl, rfl⟩),
    fun keys => (h.preserves keys).tryCatch (fun _ => Call.preserves_pure _)⟩

theorem uncounted_executed {m : Move} (h : m.Uncounted) (c : Candidate)
    (a : Awaited ExecuteResult) : (m.observed [.executed c a]).Uncounted := by
  obtain ⟨hreserved, hruns⟩ := h
  rw [Move.Uncounted, Move.observed, reservedKeys, dispatchedRuns, List.filterMap_append,
    List.filterMap_append]
  exact ⟨by simpa [reservedKeys] using hreserved, by simpa [dispatchedRuns] using hruns⟩

theorem Steady.executed {x : Call PyError S.State Move} (h : Steady S x) (c : Candidate)
    (a : Awaited ExecuteResult) : Steady S (Move.observed [.executed c a] <$> x) :=
  ⟨h.yields.map (fun _ hm => uncounted_executed hm c a), fun keys => (h.preserves keys).map _⟩

/-- Marking a dispatch is no change of keys. -/
theorem steady_markBoth {d : Dispatch} {markKey : Call PyError S.State Unit}
    {mark : String → Call PyError S.State Unit}
    (hkey : ∀ keys, Call.Preserves (CountingStore.Holding S keys) markKey)
    (hmark : ∀ keys key, Call.Preserves (CountingStore.Holding S keys) (mark key)) {m : Move}
    (hm : m.Uncounted) : Steady S ((fun _ => m) <$> markBoth d markKey mark) := by
  refine ⟨(Call.yields_any _).map (fun _ _ => hm), fun keys => Call.Preserves.map ?_ _⟩
  unfold markBoth
  split
  · refine (hkey keys).bind (fun _ => ?_)
    unfold markAlias
    split
    · exact (hmark keys _).suppress
    · exact Call.preserves_pure ()
  · exact Call.preserves_pure ()

theorem steady_executionEnded (d : Dispatch) (now : String) (a : Awaited ExecuteResult)
    (htimedOut : (timedOut t [.executed d.candidate .timedOut]).Uncounted) :
    Steady S (executionEnded S.port H t d now a) := by
  have hacknowledged : ∀ keys key, Call.Preserves (CountingStore.Holding S keys)
      (S.port.markAcknowledged key none) :=
    fun _ key => CountingStore.preserves_markAcknowledged key
  have hunknown : ∀ keys key, Call.Preserves (CountingStore.Holding S keys)
      (S.port.markUnknownEffect key) :=
    fun _ key => CountingStore.preserves_markUnknownEffect key
  cases a with
  | timedOut => exact steady_pure htimedOut
  | returned result =>
    refine (Steady.guarded ?_ t).executed _ _
    unfold executorReturned
    split
    · exact ⟨Call.yields_throw _ _, fun _ => Call.preserves_throw _⟩
    · exact steady_markBoth (fun keys => hacknowledged keys _) hacknowledged ⟨rfl, rfl⟩
    · exact steady_markBoth (fun keys => hunknown keys _) hunknown ⟨rfl, rfl⟩
  | raised r =>
    refine (Steady.guarded ?_ t).executed _ _
    cases r with
    | exception e =>
      exact steady_markBoth (fun keys => (hunknown keys _).suppress) hunknown ⟨rfl, rfl⟩
    | exit name => exact steady_pure ⟨rfl, rfl⟩

theorem uncounted_timedOut (t : Turn) {seen : List Happening}
    (h : reservedKeys seen = [] ∧ dispatchedRuns seen = []) : (timedOut t seen).Uncounted := by
  unfold timedOut
  split
  · exact h
  · exact ⟨rfl, rfl⟩

/-- The other phases count nothing, whatever the ports do. -/
theorem steady_advance (hp : ∀ c a policy, t.progress ≠ .dedupe c a policy) (ports : Ports) :
    Steady S (advance S.port H t ports) := by
  have htimedOut : Steady S (pure (timedOut t [])) := steady_pure (uncounted_timedOut t ⟨rfl, rfl⟩)
  unfold advance
  split
  · split
    · exact htimedOut
    · exact steady_pure (early_phaseNoopOrReasoning t ports _).uncounted
  · split
    · exact steady_pure (early_reasoningReturned t _).uncounted
    · exact steady_pure (early_reasoningFailed t _).uncounted
    · exact htimedOut
  · exact steady_pure (early_phaseSnapshot H t ports _).uncounted
  · exact steady_pure (early_phaseAdmission t _).uncounted
  · split
    · refine steady_pure ?_
      unfold admissionReturned
      split <;> exact ⟨rfl, rfl⟩
    · exact steady_pure ⟨rfl, rfl⟩
    · exact htimedOut
  · refine steady_pure ?_
    unfold phaseDispatchPolicy
    dsimp only
    split <;> exact ⟨rfl, rfl⟩
  · rename_i c a policy hprogress
    exact absurd hprogress (hp c a policy)
  · exact steady_pure ⟨rfl, rfl⟩
  · exact steady_executionEnded _ _ _ (uncounted_timedOut t ⟨rfl, rfl⟩)
  · exact steady_pure ⟨rfl, rfl⟩

/-- What a step does to the count. -/
inductive Counted (S : CountingStore) (H : Digest) (s : S.State) (p : Progress) (m : Move)
    (s' : S.State) : Prop where
  | quiet (other : ∀ c a policy, p ≠ .dedupe c a policy) (uncounted : m.Uncounted)
    (keys : ∀ key, S.view s' key ≠ none ↔ S.view s key ≠ none)
  | dedupe {c : Candidate} {a : AdmissionValue} {policy : DispatchPolicy}
    (progress : p = .dedupe c a policy) (taken : Taken S H s c a policy m s')

/-- **Step.** -/
theorem move_counted (hs : S.Inv s) (t : Turn) (ports : Ports) :
    S.Inv (t.move S.port H ports s).2 ∧
      Counted S H s t.progress (t.move S.port H ports s).1 (t.move S.port H ports s).2 := by
  by_cases hdedupe : ∃ c a policy, t.progress = .dedupe c a policy
  · obtain ⟨c, a, policy, hp⟩ := hdedupe
    obtain ⟨m, s', hphase, hs', htaken⟩ := phaseDedupe_taken (H := H) (t := t) hs c a policy
    have hmove : t.move S.port H ports s = (m, s') := by
      simp only [Turn.move, advance, hp, hphase]
    rw [hmove]
    exact ⟨hs', .dedupe hp htaken⟩
  · have hother : ∀ c a policy, t.progress ≠ .dedupe c a policy :=
      fun c a policy hp => hdedupe ⟨c, a, policy, hp⟩
    have hsteady := steady_advance (S := S) (H := H) hother ports
    have hkept := hsteady.preserves (fun key => S.view s key ≠ none) s ⟨hs, fun _ => Iff.rfl⟩
    unfold Turn.move
    cases hadvance : advance S.port H t ports s with
    | ok m s' =>
      rw [(Call.outcome_ok hadvance).2] at hkept
      exact ⟨hkept.1, .quiet hother (hsteady.yields s m s' hadvance) hkept.2⟩
    | error e s' =>
      rw [(Call.outcome_error hadvance).2] at hkept
      exact ⟨hkept.1, .quiet hother ⟨rfl, rfl⟩ hkept.2⟩

/-! ### When the count is right -/

theorem counts_legacyKey (S : CountingStore) (c : Candidate) :
    S.counts c.input.runId c.legacyKey = true := by
  have hown := S.counts_own c.input.runId
    (c.action.actionId ++ ":" ++ toString c.input.basedOnOffset)
  simpa only [Candidate.legacyKey, legacyDispatchDedupeKey, String.append_assoc] using hown

/-- **Exactness of a step.** The keys it reserves count for the run as often as it dispatches, and
it reserves none if the run cannot be counted for. -/
theorem Counted.exact {m : Move} {s' : S.State} (h : Counted S H s t.progress m s')
    (runId : String) :
    ((reservedKeys m.happened = [] ∨ S.countable runId) ∧
        (reservedKeys m.happened).countP (S.counts runId) = (dispatchedRuns m.happened).count runId) ↔
      ∀ c admission policy, t.progress = .dedupe c admission policy →
        S.view s c.legacyKey = none → S.view s (c.policyKey H) = none →
          (S.holds (dedupeEnvelope H c admission policy).attemptSeq →
            S.countable runId ∧ S.counts runId (c.policyKey H) = false ∧
              (S.counts runId c.legacyKey = true → c.input.runId = runId)) ∧
          (¬ S.holds (dedupeEnvelope H c admission policy).attemptSeq →
            c.action.effectClass = .idempotentWrite → c.input.runId ≠ runId) := by
  cases h with
  | quiet other uncounted keys =>
    rw [uncounted.1, uncounted.2]
    exact iff_of_true ⟨.inl rfl, rfl⟩ (fun c a policy hp => absurd hp (other c a policy))
  | dedupe progress taken =>
    rename_i c a policy
    have hforall : ∀ {C : Candidate → AdmissionValue → DispatchPolicy → Prop},
        (∀ c' a' policy', t.progress = .dedupe c' a' policy' → C c' a' policy') ↔ C c a policy := by
      intro C
      constructor
      · exact fun hall => hall c a policy progress
      · intro hone c' a' policy' hp
        rw [progress] at hp
        obtain ⟨rfl, rfl, rfl⟩ := Progress.dedupe.inj hp
        exact hone
    rw [hforall (C := fun c a policy => S.view s c.legacyKey = none →
      S.view s (c.policyKey H) = none →
        (S.holds (dedupeEnvelope H c a policy).attemptSeq →
          S.countable runId ∧ S.counts runId (c.policyKey H) = false ∧
            (S.counts runId c.legacyKey = true → c.input.runId = runId)) ∧
        (¬ S.holds (dedupeEnvelope H c a policy).attemptSeq →
          c.action.effectClass = .idempotentWrite → c.input.runId ≠ runId))]
    cases taken with
    | blocked known uncounted keys =>
      rw [uncounted.1, uncounted.2]
      refine iff_of_true ⟨.inl rfl, rfl⟩ (fun hlegacy hpolicy => ?_)
      rcases known with hknown | hknown
      · exact absurd hlegacy hknown
      · exact absurd hpolicy hknown
    | recorded legacy free held reserved runs keys =>
      rw [reserved, runs]
      have hown : c.input.runId = runId → S.counts runId c.legacyKey = true := by
        rintro rfl
        exact counts_legacyKey S c
      simp only [legacy, free, held, true_imp_iff, not_true_eq_false, false_imp_iff, and_true,
        List.cons_ne_nil, false_or]
      refine and_congr_right (fun _ => ?_)
      by_cases hrun : c.input.runId = runId
      · cases hpolicy : S.counts runId (c.policyKey H) <;> simp [hrun, hpolicy, hown hrun]
      · cases hpolicy : S.counts runId (c.policyKey H) <;>
          cases hlegacy : S.counts runId c.legacyKey <;> simp [hrun, hpolicy, hlegacy]
    | unrecorded legacy free unheld reserved runs keys =>
      rw [reserved, runs]
      simp only [legacy, free, unheld, true_imp_iff, not_false_eq_true, false_imp_iff, true_and,
        true_or]
      by_cases heffect : c.action.effectClass = .idempotentWrite
      · by_cases hrun : c.input.runId = runId <;> simp [heffect, hrun]
      · simp [heffect]

/-- The store works, and its keys are those that were reserved, each once. -/
structure Tallied (S : CountingStore) (w : System S.State) : Prop where
  works : S.Inv w.store
  once : (reservedKeys (happenings w.trace)).Nodup
  keys : ∀ key, S.view w.store key ≠ none ↔ key ∈ reservedKeys (happenings w.trace)

/-- The count is of what was reserved, if the run can be counted for. -/
theorem Tallied.countsDispatches_iff {w : System S.State} (h : Tallied S w) (runId : String) :
    CountsDispatches S runId w ↔
      (reservedKeys (happenings w.trace) = [] ∨ S.countable runId) ∧
        (reservedKeys (happenings w.trace)).countP (S.counts runId) = dispatchedTurns runId w.trace := by
  have hsame : (S.keys w.store).Perm (reservedKeys (happenings w.trace)) := by
    refine (List.perm_ext_iff_of_nodup (S.keys_nodup _) h.once).mpr (fun key => ?_)
    rw [S.mem_keys, h.keys]
  have hnil : S.keys w.store = [] ↔ reservedKeys (happenings w.trace) = [] :=
    ⟨fun hkeys => (hkeys ▸ hsame).nil_eq.symm, fun hkeys => (hkeys ▸ hsame).eq_nil⟩
  rw [CountsDispatches, ← hnil]
  by_cases hcount : S.keys w.store = [] ∨ S.countable runId
  · rw [S.countByRun runId w.store h.works hcount, hsame.countP_eq, Except.ok.injEq, Option.some.injEq]
    exact ⟨fun heq => ⟨hcount, heq⟩, fun hand => hand.2⟩
  · obtain ⟨hkeys, hnot⟩ := not_or.mp hcount
    obtain ⟨e, hraised⟩ := S.raises runId w.store h.works hkeys hnot
    rw [hraised]
    exact iff_of_false (fun heq => by cases heq) (fun hand => hcount hand.1)

theorem happenings_append (trace : List Observation) (i : Nat) (happened : List Happening) :
    happenings (trace ++ tagged i happened) = happenings trace ++ happened := by
  simp [happenings, tagged, Function.comp_def]

/-- What a step reserves is new to the store. -/
theorem Counted.reserves {m : Move} {s' : S.State} (h : Counted S H s t.progress m s') :
    (reservedKeys m.happened).Nodup ∧ (∀ key ∈ reservedKeys m.happened, S.view s key = none) ∧
      ∀ key, S.view s' key ≠ none ↔ S.view s key ≠ none ∨ key ∈ reservedKeys m.happened := by
  have hquiet : m.Uncounted → (∀ key, S.view s' key ≠ none ↔ S.view s key ≠ none) →
      (reservedKeys m.happened).Nodup ∧ (∀ key ∈ reservedKeys m.happened, S.view s key = none) ∧
        ∀ key, S.view s' key ≠ none ↔ S.view s key ≠ none ∨ key ∈ reservedKeys m.happened := by
    rintro ⟨hnone, -⟩ hkeys
    rw [hnone]
    exact ⟨List.nodup_nil, fun _ hkey => absurd hkey List.not_mem_nil,
      fun key => (hkeys key).trans (by simp)⟩
  cases h with
  | quiet other uncounted keys => exact hquiet uncounted keys
  | dedupe progress taken =>
    cases taken with
    | blocked known uncounted keys => exact hquiet uncounted (fun key => by rw [keys])
    | recorded legacy free held reserved runs keys =>
      rw [reserved]
      refine ⟨by simp [(Candidate.legacyKey_ne_policyKey H _).symm], ?_, fun key => ?_⟩
      · intro key hkey
        rcases List.mem_cons.mp hkey with rfl | hkey
        · exact free
        · rw [List.mem_singleton.mp hkey]
          exact legacy
      · rw [keys key]
        simp
    | unrecorded legacy free unheld reserved runs keys =>
      rw [reserved, keys]
      exact ⟨List.nodup_nil, fun _ hkey => absurd hkey List.not_mem_nil, fun key => by simp⟩

theorem Tallied.step {w : System S.State} (h : Tallied S w) (H : Digest) (l : Label) :
    Tallied S (w.step S.port H l) := by
  unfold System.step
  split
  · exact h
  · rename_i t ht
    obtain ⟨hworks, hcounted⟩ := move_counted (H := H) h.works t l.ports
    obtain ⟨hnodup, hnew, hkeys⟩ := hcounted.reserves
    refine ⟨hworks, ?_, fun key => ?_⟩
    · rw [happenings_append, reservedKeys, List.filterMap_append]
      refine List.nodup_append.mpr ⟨h.once, hnodup, ?_⟩
      rintro key hold _ hadded rfl
      exact (h.keys key).mpr hold (hnew key hadded)
    · rw [happenings_append, reservedKeys, List.filterMap_append, List.mem_append, hkeys key,
        h.keys key]
      rfl

/-- The count is right before a step and after it exactly when the step counts once. -/
theorem Tallied.countsDispatches_step {w : System S.State} (h : Tallied S w) (H : Digest)
    (l : Label) (runId : String) (hcount : CountsDispatches S runId w) :
    CountsDispatches S runId (w.step S.port H l) ↔ CountedOnce S H runId w l := by
  obtain ⟨hcan, hbefore⟩ := (h.countsDispatches_iff runId).mp hcount
  rw [(h.step H l).countsDispatches_iff runId]
  unfold System.step CountedOnce
  split
  case h_1 hnone =>
    refine iff_of_true ⟨hcan, hbefore⟩ (fun t c a policy ht => ?_)
    rw [hnone] at ht
    cases ht
  case h_2 t ht =>
    obtain ⟨-, hcounted⟩ := move_counted (H := H) h.works t l.ports
    have hexact := hcounted.exact runId
    have hsplit : ∀ {a b c d : Nat}, a = b → (a + c = b + d ↔ c = d) := by
      intro a b c d hab
      omega
    have hnone : ∀ {keys : List String},
        (reservedKeys (happenings w.trace) ++ keys = [] ∨ S.countable runId) ↔
          (keys = [] ∨ S.countable runId) := by
      intro keys
      rw [List.append_eq_nil_iff]
      rcases hcan with hnil | hcan
      · simp [hnil]
      · simp [hcan]
    rw [dispatchedTurns, happenings_append, reservedKeys, dispatchedRuns, List.filterMap_append,
      List.filterMap_append, List.countP_append, List.count_append]
    refine (and_congr hnone (hsplit hbefore)).trans (hexact.trans ?_)
    constructor
    · intro hall t' c a policy ht'
      rw [ht] at ht'
      obtain rfl := Option.some.inj ht'
      exact hall c a policy
    · exact fun hall c a policy => hall t c a policy ht

/-- **When a store counts the dispatched turns of a run**, over every interleaving of any turns. -/
theorem countsDispatches_iff (S : CountingStore) (H : Digest) {store : S.State}
    (hworks : S.Inv store) (hempty : S.view store = fun _ => none) (calls : List TurnCall)
    (labels : List Label) (runId : String) :
    (∀ pre, pre <+: labels → CountsDispatches S runId (interleaved S.port H store calls pre)) ↔
      Along (System.step S.port H) (CountedOnce S H runId) (System.start store calls) labels := by
  have hstart : Tallied S (System.start store calls) :=
    ⟨hworks, List.nodup_nil, fun key => by simp [System.start, hempty, happenings, reservedKeys]⟩
  have hzero : CountsDispatches S runId (System.start store calls) := by
    exact (hstart.countsDispatches_iff runId).mpr ⟨.inl rfl, rfl⟩
  exact forall_prefix_iff_along
    (J := fun w => Tallied S w ∧ CountsDispatches S runId w) (A := fun _ _ => True)
    (fun _ h => h.2) (fun _ l _ h => h.1.countsDispatches_step H l runId h.2)
    (fun _ l _ h hc => ⟨h.1.step H l, (h.1.countsDispatches_step H l runId h.2).mpr hc⟩)
    ⟨hstart, hzero⟩ (Along.of_forall (fun _ _ => trivial) _ _)

end

/-- **When action counts are per run.** From an empty store in memory or in SQLite and through any
interleaving of any turns, the count of a run stays the number of its dispatched turns exactly when
every turn that comes to be dispatched takes one key that counts for its own run and none that
counts for another. -/
theorem action_counts_iff (H : Digest) (calls : List TurnCall) (labels : List Label)
    (runId : String) :
    ((∀ pre, pre <+: labels → CountsDispatches .inMemory runId
        (interleaved InMemoryDedupeStore.port H Dict.empty calls pre)) ↔
      Along (System.step InMemoryDedupeStore.port H) (CountedOnce .inMemory H runId)
        (System.start Dict.empty calls) labels) ∧
    ((∀ pre, pre <+: labels → CountsDispatches .sqlite runId
        (interleaved SQLiteDedupeStore.port H (Conn.idle Table.empty []) calls pre)) ↔
      Along (System.step SQLiteDedupeStore.port H) (CountedOnce .sqlite H runId)
        (System.start (Conn.idle Table.empty []) calls) labels) :=
  ⟨countsDispatches_iff .inMemory H trivial rfl calls labels runId,
    countsDispatches_iff .sqlite H ⟨Table.empty, rfl⟩ rfl calls labels runId⟩

/-- Two turns one after the other, each acknowledged. -/
def twoTurns (first second : String) : List TurnCall :=
  [Sample.call {} first "act", Sample.call {} second "act"]

def twoTurnLabels : List Label :=
  Sample.wholeTurn 0 Sample.acknowledged ++ Sample.wholeTurn 1 Sample.acknowledged

/-- A turn of `run-1` and one of `run-10` in memory, or one of `run` and one of its child
`run:kind` in SQLite: the first run has two actions by the count. -/
theorem count_takes_other_run :
    ¬ CountsDispatches .inMemory "run-1" (interleaved InMemoryDedupeStore.port Sample.digest
        Dict.empty (twoTurns "run-1" "run-10") twoTurnLabels) ∧
      ¬ CountsDispatches .sqlite "run" (interleaved SQLiteDedupeStore.port Sample.digest
        (Conn.idle Table.empty []) (twoTurns "run" "run:kind") twoTurnLabels) := by
  constructor
  · intro h
    have hcount : (InMemoryDedupeStore.port.countByRun "run-1").outcome
        (interleaved InMemoryDedupeStore.port Sample.digest Dict.empty
          (twoTurns "run-1" "run-10") twoTurnLabels).store = .ok (some 2) := by rfl
    have hturns := Option.some.inj (Except.ok.inj (hcount.symm.trans h))
    revert hturns
    decide +kernel
  · intro h
    have hcount : (SQLiteDedupeStore.port.countByRun "run").outcome
        (interleaved SQLiteDedupeStore.port Sample.digest (Conn.idle Table.empty [])
          (twoTurns "run" "run:kind") twoTurnLabels).store = .ok (some 2) := by rfl
    have hturns := Option.some.inj (Except.ok.inj (hcount.symm.trans h))
    revert hturns
    decide +kernel

end AgentKernel.Turns
