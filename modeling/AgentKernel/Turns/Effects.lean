import AgentKernel.Dedupe.Healthy
import AgentKernel.Turns.Engine

/-! What one step of a turn can do on a healthy dedupe store.

`Effect` lists every kind of step a turn takes: what it did in the world, where it
stands afterwards and how the ledger changed. `move_effect` says that there is no
other, provided that a turn past the dedupe phase still holds its two keys. Nothing
after it looks into a phase again. -/
namespace AgentKernel.Turns
open Lib Dedupe

/-! ### Keys in a ledger -/

/-- The key's record is in the given state. -/
def HasState (L : Ledger) (key : String) (state : DedupeState) : Prop :=
  ∃ r, L key = some r ∧ r.state = state

instance (L : Ledger) (key : String) (state : DedupeState) : Decidable (HasState L key state) :=
  decidable_of_iff ((L key).map DedupeRecord.state = some state) Option.map_eq_some_iff

theorem HasState.present {L : Ledger} {key : String} {state : DedupeState}
    (h : HasState L key state) : L key ≠ none := by
  obtain ⟨r, hr, _⟩ := h
  rw [hr]
  exact Option.some_ne_none r

theorem HasState.congr {L L' : Ledger} {key : String} {state : DedupeState}
    (h : HasState L key state) (hkey : L' key = L key) : HasState L' key state := by
  unfold HasState
  rw [hkey]
  exact h

/-- Both keys of a candidate written. -/
def putBoth (H : Digest) (c : Candidate) (L : Ledger) (r r' : DedupeRecord) : Ledger :=
  (L.put (c.policyKey H) r).put c.legacyKey r'

theorem putBoth_policyKey (H : Digest) (c : Candidate) (L : Ledger) (r r' : DedupeRecord) :
    putBoth H c L r r' (c.policyKey H) = some r := by
  rw [putBoth, Ledger.put_apply, if_neg (c.legacyKey_ne_policyKey H).symm, Ledger.put_apply,
    if_pos rfl]

theorem putBoth_legacyKey (H : Digest) (c : Candidate) (L : Ledger) (r r' : DedupeRecord) :
    putBoth H c L r r' c.legacyKey = some r' := by
  rw [putBoth, Ledger.put_apply, if_pos rfl]

theorem putBoth_other {H : Digest} {c : Candidate} {key : String} (hp : key ≠ c.policyKey H)
    (hl : key ≠ c.legacyKey) (L : Ledger) (r r' : DedupeRecord) :
    putBoth H c L r r' key = L key := by
  rw [putBoth, Ledger.put_apply, if_neg hl, Ledger.put_apply, if_neg hp]

theorem putBoth_present {L : Ledger} {key : String} (h : L key ≠ none) (H : Digest) (c : Candidate)
    (r r' : DedupeRecord) : putBoth H c L r r' key ≠ none := by
  by_cases hl : key = c.legacyKey
  · rw [hl, putBoth_legacyKey]
    exact Option.some_ne_none r'
  · by_cases hp : key = c.policyKey H
    · rw [hp, putBoth_policyKey]
      exact Option.some_ne_none r
    · rw [putBoth_other hp hl]
      exact h

/-! ### The kinds of steps -/

/-- Before the admission service has answered. -/
def Progress.early : Progress → Bool
  | .noopOrReasoning _ | .reasoning _ | .snapshot _ | .admission _ | .admitting _ => true
  | _ => false

/-- The store took part in the dispatch, under both keys. -/
structure Dispatch.Tracked (d : Dispatch) : Prop where
  available : d.dedupeAvailable = true
  aliased : d.legacyAliasKey = some d.candidate.legacyKey

/-- A dispatch that holds its two keys. -/
structure Dispatch.Pending (H : Digest) (L : Ledger) (d : Dispatch) : Prop where
  tracked : d.Tracked
  policy : HasState L (d.candidate.policyKey H) .dispatched
  legacy : HasState L d.candidate.legacyKey .dispatched

/-- A turn past the dedupe phase holds its two keys. -/
def Progress.Ready (H : Digest) (L : Ledger) : Progress → Prop
  | .execute d | .executing d _ => d.Pending H L
  | _ => True

/-- The ways an execution can end that reach the marks: the executor returned a
dictionary whose `acknowledged` entry has a truth value, or raised an `Exception`. -/
def Awaited.settles : Awaited ExecuteResult → Bool
  | .returned result => result.acknowledged.toBool
  | .raised (.exception _) => true
  | .raised (.exit _) => false
  | .timedOut => false

inductive Effect (H : Digest) (L : Ledger) :
    Progress → List Happening → Progress → Ledger → Prop where
  | early {p p' : Progress} : p.early → (p'.early ∨ ∃ o, p' = .finished o) → Effect H L p [] p' L
  | admitted {c : Candidate} {r : AdmissionValue} : isAdmitted r = .ok true →
    Effect H L (.admitting c) [.admission r] (.dispatchPolicy c r) L
  | unadmitted {c : Candidate} {r : AdmissionValue} {o : TurnOutcome} :
    Effect H L (.admitting c) [.admission r] (.finished o) L
  | allowed {c : Candidate} {r : AdmissionValue} {policy : DispatchPolicy} :
    Effect H L (.dispatchPolicy c r) [] (.dedupe c r policy) L
  | blocked {c : Candidate} {r : AdmissionValue} {o : TurnOutcome} :
    Effect H L (.dispatchPolicy c r) [] (.finished o) L
  | knownLegacy {c : Candidate} {r : AdmissionValue} {policy : DispatchPolicy} {o : TurnOutcome} :
    L c.legacyKey ≠ none → Effect H L (.dedupe c r policy) [.duplicate c] (.finished o) L
  | knownPolicy {c : Candidate} {r : AdmissionValue} {policy : DispatchPolicy} {o : TurnOutcome} :
    L (c.policyKey H) ≠ none →
    Effect H L (.dedupe c r policy) [.reservation (c.policyKey H) false, .duplicate c]
      (.finished o) L
  | accepted {c : Candidate} {r : AdmissionValue} {policy : DispatchPolicy} {d : Dispatch}
      {rec rec' : DedupeRecord} : d.candidate = c → d.Tracked →
    L (c.policyKey H) = none → L c.legacyKey = none →
    rec.state = .dispatched → rec'.state = .dispatched →
    Effect H L (.dedupe c r policy)
      [.reservation (c.policyKey H) true, .reservation c.legacyKey true, .dispatched c]
      (.execute d) (putBoth H c L rec rec')
  | invoked {d : Dispatch} {call : ExecutorCall} :
    Effect H L (.execute d) [.execute d.candidate call] (.executing d call) L
  | closed {d : Dispatch} {call : ExecutorCall} {a : Awaited ExecuteResult} {o : TurnOutcome}
      {rec rec' : DedupeRecord} {state : DedupeState} : a.settles = true →
    (state = .acknowledged ∨ state = .unknownEffect) → rec.state = state → rec'.state = state →
    Effect H L (.executing d call) [.executed d.candidate a] (.finished o)
      (putBoth H d.candidate L rec rec')
  | abandoned {d : Dispatch} {call : ExecutorCall} {a : Awaited ExecuteResult} {o : TurnOutcome} :
    a.settles = false →
    Effect H L (.executing d call) [.executed d.candidate a] (.finished o) L
  | waiting {p : Progress} : Effect H L p [] p L

/-! ### Before the dedupe phase -/

/-- A step that stays before the admission answer, or ends the turn. -/
def Move.Early (m : Move) : Prop :=
  m.happened = [] ∧ (m.progress.early = true ∨ ∃ o, m.progress = .finished o)

theorem early_return (result : TurnResult) : (Move.return result []).Early :=
  ⟨rfl, .inr ⟨_, rfl⟩⟩

theorem early_raise (events : List TurnStateEvent) (r : Raised) : (Move.raise events r).Early :=
  ⟨rfl, .inr ⟨_, rfl⟩⟩

theorem early_reasoningFailed (t : Turn) (r : Raised) : (reasoningFailed t r).Early := by
  cases r with
  | exception e => exact early_return _
  | exit name => exact early_raise _ _

theorem early_phaseNoopOrReasoning (t : Turn) (ports : Ports) (action : Option Action) :
    (phaseNoopOrReasoning t ports action).Early := by
  cases action with
  | some action => exact ⟨rfl, .inl rfl⟩
  | none =>
    simp only [phaseNoopOrReasoning]
    split
    · exact early_return _
    · split
      · exact early_reasoningFailed _ _
      · exact ⟨rfl, .inl rfl⟩

theorem early_reasoningReturned (t : Turn) (actions : List Action) :
    (reasoningReturned t actions).Early := by
  cases actions with
  | nil => exact early_return _
  | cons action _ => exact ⟨rfl, .inl rfl⟩

theorem early_phaseSnapshot (H : Digest) (t : Turn) (ports : Ports) (action : Action) :
    (phaseSnapshot H t ports action).Early := by
  unfold phaseSnapshot
  split
  · exact ⟨rfl, .inl rfl⟩
  · split
    · exact early_return _
    · exact early_raise _ _
  · exact early_raise _ _

theorem early_phaseAdmission (t : Turn) (c : Candidate) : (phaseAdmission t c).Early := by
  unfold phaseAdmission
  split
  · exact ⟨rfl, .inl rfl⟩
  · exact early_raise _ _

theorem early_timedOut {t : Turn} (h : t.progress.early = true) : (timedOut t []).Early := by
  unfold timedOut
  split
  · exact ⟨rfl, .inr ⟨_, rfl⟩⟩
  · exact ⟨rfl, .inl h⟩

theorem Move.Early.effect {m : Move} (h : m.Early) {p : Progress} (hp : p.early = true)
    (H : Digest) (L : Ledger) : Effect H L p m.happened m.progress L := by
  rw [h.1]
  exact .early hp h.2

theorem admissionReturned_effect (H : Digest) (L : Ledger) (t : Turn) (c : Candidate)
    (result : AdmissionValue) :
    Effect H L (.admitting c) (admissionReturned H t c result).happened
      (admissionReturned H t c result).progress L := by
  unfold admissionReturned
  split
  · exact .unadmitted
  · rename_i hadmitted
    exact .admitted hadmitted
  · exact .unadmitted

theorem phaseDispatchPolicy_effect (H : Digest) (L : Ledger) (t : Turn) (c : Candidate)
    (r : AdmissionValue) :
    Effect H L (.dispatchPolicy c r) (phaseDispatchPolicy H t c r).happened
      (phaseDispatchPolicy H t c r).progress L := by
  unfold phaseDispatchPolicy
  simp only
  split
  · exact .blocked
  · exact .allowed

/-! ### The dedupe phase -/

section
variable {σ : Type} (S : DedupeStorePort σ) (H : Digest) (t : Turn) (c : Candidate)
  (r : AdmissionValue) (policy : DispatchPolicy) {s : σ}

/-- The envelope the dedupe phase reserves with. -/
def dedupeEnvelope : IdempotencyEnvelope :=
  resolveIdempotencyEnvelope r (c.identity H) c.action c.snapshot policy.hostKind

theorem dedupeEnvelope_key :
    (dedupeEnvelope H c r policy).dispatchIdempotencyKey = c.policyKey H :=
  resolveIdempotencyEnvelope_key _ _ _ _ _

theorem legacyLookup_eval {s' : σ} {found : Option DedupeRecord}
    (h : S.get c.legacyKey s = .ok found s') : legacyLookup S H c s = .ok found s' := by
  simp only [legacyLookup, if_pos (c.legacyKey_ne_policyKey H), suppressed, Call.tryCatch_apply, h]

/-- What the store's answer makes of the reservation. -/
def answered (reservation : DedupeReservation) : Reserved :=
  ⟨reservation, dedupeEnvelope H c r policy, true, t.events⟩

theorem reservationHappened_answered (reservation : DedupeReservation) :
    reservationHappened (answered H t c r policy reservation) =
      [.reservation (c.policyKey H) reservation.accepted] := by
  simp only [reservationHappened, answered, if_true, dedupeEnvelope_key]

theorem reserve_eval {reservation : DedupeReservation} {s' : σ}
    (h : S.reserveAndDispatch (dedupeEnvelope H c r policy) none s = .ok reservation s') :
    reserveWithDegradation S (dedupeEnvelope H c r policy) c.action policy.hostKind t.events s
      = .ok (answered H t c r policy reservation) s' := by
  simp only [reserveWithDegradation, Call.tryCatch_apply, Call.map_apply, h]
  rfl

theorem mirror_eval {s' : σ}
    (h : S.reserveAndDispatch (legacyEnvelope c (dedupeEnvelope H c r policy))
      (dedupeEnvelope H c r policy).peerOperationId s = .ok .granted s') :
    mirrorLegacy S H c (answered H t c r policy .granted) s = .ok (some .granted) s' := by
  have hmirror : (answered H t c r policy .granted).dedupeAvailable = true ∧
      c.legacyKey ≠ c.policyKey H := ⟨rfl, c.legacyKey_ne_policyKey H⟩
  have henvelope : (answered H t c r policy .granted).envelope = dedupeEnvelope H c r policy := rfl
  simp only [mirrorLegacy, if_pos hmirror, suppressed, Call.tryCatch_apply, Call.map_apply,
    henvelope, h]

/-- The phase when the legacy key is known. -/
theorem phaseDedupe_knownLegacy {s' : σ} {rec : DedupeRecord}
    (hlookup : legacyLookup S H c s = .ok (some rec) s') :
    phaseDedupe S H t c r policy s = .ok (blockedAsDuplicate H c policy t.events []) s' := by
  simp only [phaseDedupe, Call.bind_apply, hlookup]
  rfl

/-- The phase when only the policy key is known. -/
theorem phaseDedupe_refused {s₁ s₂ : σ} {existing : DedupeRecord}
    (hlookup : legacyLookup S H c s = .ok none s₁)
    (hreserve : S.reserveAndDispatch (dedupeEnvelope H c r policy) none s₁ =
      .ok (.duplicateOf existing) s₂) :
    phaseDedupe S H t c r policy s =
      .ok (blockedAsDuplicate H c policy t.events [.reservation (c.policyKey H) false]) s₂ := by
  have hphase := reserve_eval S H t c r policy hreserve
  have hhappened := reservationHappened_answered H t c r policy (.duplicateOf existing)
  simp only [dedupeEnvelope] at hphase
  simp only [phaseDedupe, Call.bind_apply, hlookup, hphase, hhappened]
  rfl

/-- The phase when neither key is known. -/
theorem phaseDedupe_accepted {s₁ s₂ s₃ : σ}
    (hlookup : legacyLookup S H c s = .ok none s₁)
    (hreserve : S.reserveAndDispatch (dedupeEnvelope H c r policy) none s₁ = .ok .granted s₂)
    (hmirror : S.reserveAndDispatch (legacyEnvelope c (dedupeEnvelope H c r policy))
      (dedupeEnvelope H c r policy).peerOperationId s₂ = .ok .granted s₃) :
    phaseDedupe S H t c r policy s =
      .ok (dispatchAccepted c r policy (answered H t c r policy .granted) (some .granted)) s₃ := by
  have hphase := reserve_eval S H t c r policy hreserve
  have hmirrored := mirror_eval S H t c r policy hmirror
  simp only [dedupeEnvelope] at hphase
  simp only [phaseDedupe, Call.bind_apply, hlookup, hphase]
  show (dispatchAccepted c r policy (answered H t c r policy .granted) <$>
    mirrorLegacy S H c (answered H t c r policy .granted) : Call PyError σ Move) s₂ = _
  rw [Call.map_apply, hmirrored]

/-- The phase when the store raises: an idempotent write is dispatched without it. -/
theorem phaseDedupe_raised {s₁ s₂ : σ} {e : PyError}
    (hlookup : legacyLookup S H c s = .ok none s₁)
    (hreserve : S.reserveAndDispatch (dedupeEnvelope H c r policy) none s₁ = .error e s₂) :
    phaseDedupe S H t c r policy s =
      if c.action.effectClass ≠ .idempotentWrite then .error e s₂
      else .ok (dispatchAccepted c r policy
        (degraded (dedupeEnvelope H c r policy) policy.hostKind t.events e) none) s₂ := by
  have hphase : reserveWithDegradation S (dedupeEnvelope H c r policy) c.action policy.hostKind
      t.events s₁ =
      if c.action.effectClass ≠ .idempotentWrite then .error e s₂
      else .ok (degraded (dedupeEnvelope H c r policy) policy.hostKind t.events e) s₂ := by
    simp only [reserveWithDegradation, Call.tryCatch_apply, Call.map_apply, hreserve]
    split <;> rfl
  simp only [dedupeEnvelope] at hphase
  simp only [phaseDedupe, Call.bind_apply, hlookup, hphase]
  by_cases heffect : c.action.effectClass = .idempotentWrite
  · simp only [heffect, ne_eq, not_true_eq_false, if_false]
    rfl
  · simp only [ne_eq, heffect, not_false_eq_true, if_true]

end

section
variable (S : HealthyStore) (H : Digest) (t : Turn) (c : Candidate) (r : AdmissionValue)
  (policy : DispatchPolicy) {s : S.State}

/-- **What the dedupe phase does**, by what the store shows of the turn's two keys. -/
theorem phaseDedupe_cases :
    (S.view s c.legacyKey ≠ none ∧ ∃ s',
      phaseDedupe S.port H t c r policy s = .ok (blockedAsDuplicate H c policy t.events []) s' ∧
        S.view s' = S.view s) ∨
    (S.view s c.legacyKey = none ∧ S.view s (c.policyKey H) ≠ none ∧ ∃ s',
      phaseDedupe S.port H t c r policy s =
          .ok (blockedAsDuplicate H c policy t.events [.reservation (c.policyKey H) false]) s' ∧
        S.view s' = S.view s) ∨
    (S.view s c.legacyKey = none ∧ S.view s (c.policyKey H) = none ∧ ∃ s' rec rec',
      phaseDedupe S.port H t c r policy s =
          .ok (dispatchAccepted c r policy (answered H t c r policy .granted) (some .granted)) s' ∧
        rec.state = .dispatched ∧ rec'.state = .dispatched ∧
        S.view s' = putBoth H c (S.view s) rec rec') := by
  obtain ⟨s₁, hget, hview₁⟩ := HealthyStore.get_eval (S := S) (s := s) c.legacyKey
  have hlookup := legacyLookup_eval S.port H c hget
  cases hlegacy : S.view s c.legacyKey with
  | some rec =>
    rw [hlegacy] at hlookup
    exact .inl ⟨Option.some_ne_none rec, s₁, phaseDedupe_knownLegacy S.port H t c r policy hlookup, hview₁⟩
  | none =>
    rw [hlegacy] at hlookup
    cases hpolicy : S.view s (c.policyKey H) with
    | some rec =>
      have hknown : S.view s₁ (dedupeEnvelope H c r policy).dispatchIdempotencyKey = some rec := by
        rw [dedupeEnvelope_key, hview₁, hpolicy]
      obtain ⟨s₂, hreserve, hview₂⟩ := HealthyStore.reserveAndDispatch_present hknown none
      exact .inr (.inl ⟨rfl, Option.some_ne_none rec, s₂,
        phaseDedupe_refused S.port H t c r policy hlookup hreserve, hview₂.trans hview₁⟩)
    | none =>
      have hnew : S.view s₁ (dedupeEnvelope H c r policy).dispatchIdempotencyKey = none := by
        rw [dedupeEnvelope_key, hview₁, hpolicy]
      obtain ⟨s₂, hreserve, hview₂⟩ := HealthyStore.reserveAndDispatch_absent hnew none
      rw [dedupeEnvelope_key, hview₁] at hview₂
      have hfree : S.view s₂ c.legacyKey = none := by
        rw [hview₂, Ledger.put_apply, if_neg (c.legacyKey_ne_policyKey H), hlegacy]
      obtain ⟨s₃, hmirror, hview₃⟩ := HealthyStore.reserveAndDispatch_absent
        (e := legacyEnvelope c (dedupeEnvelope H c r policy)) hfree
        (dedupeEnvelope H c r policy).peerOperationId
      rw [hview₂] at hview₃
      exact .inr (.inr ⟨rfl, rfl, s₃, _, _,
        phaseDedupe_accepted S.port H t c r policy hlookup hreserve hmirror, rfl, rfl, hview₃⟩)

/-- **The dedupe phase takes the turn's two keys or ends the turn.** -/
theorem phaseDedupe_effect :
    ∃ m s', phaseDedupe S.port H t c r policy s = .ok m s' ∧
      Effect H (S.view s) (.dedupe c r policy) m.happened m.progress (S.view s') := by
  rcases phaseDedupe_cases S H t c r policy (s := s) with ⟨hlegacy, s', hphase, hview⟩ |
    ⟨-, hpolicy, s', hphase, hview⟩ | ⟨hlegacy, hpolicy, s', rec, rec', hphase, hrec, hrec', hview⟩
  · refine ⟨_, s', hphase, ?_⟩
    rw [hview]
    exact .knownLegacy hlegacy
  · refine ⟨_, s', hphase, ?_⟩
    rw [hview]
    exact .knownPolicy hpolicy
  · refine ⟨_, s', hphase, ?_⟩
    rw [hview]
    simp only [dispatchAccepted, reservationHappened_answered]
    exact .accepted rfl ⟨rfl, rfl⟩ hpolicy hlegacy hrec hrec'

end

/-! ### The execution phase -/

section
variable {S : HealthyStore} {H : Digest} {t : Turn} {d : Dispatch} {s : S.State}

/-- A mark that moves a dispatched record to a state. -/
def Marks (S : HealthyStore) (mark : String → Call PyError S.State Unit) (state : DedupeState) :
    Prop :=
  ∀ (s : S.State) (key : String) (r : DedupeRecord), S.view s key = some r →
    r.state = .dispatched →
    ∃ s', mark key s = .ok () s' ∧ S.view s' = (S.view s).put key (r.moved state none none)

theorem marks_acknowledged : Marks S (fun key => S.port.markAcknowledged key none) .acknowledged :=
  fun _ _ _ hr hstate => HealthyStore.markAcknowledged_eval hr hstate

theorem marks_unknownEffect : Marks S S.port.markUnknownEffect .unknownEffect :=
  fun _ _ _ hr hstate => HealthyStore.markUnknownEffect_eval hr hstate

theorem Marks.suppress {mark : String → Call PyError S.State Unit} {state : DedupeState}
    (h : Marks S mark state) : Marks S (fun key => (mark key).suppress) state := by
  intro s key r hr hstate
  obtain ⟨s', hmark, hview⟩ := h s key r hr hstate
  refine ⟨s', ?_, hview⟩
  simp only [Call.suppress, Call.tryCatch_apply, hmark]

/-- A pending dispatch is marked under both keys. -/
theorem markBoth_eval {markKey mark : String → Call PyError S.State Unit} {state : DedupeState}
    (hkey : Marks S markKey state) (hmark : Marks S mark state) (hd : d.Pending H (S.view s)) :
    ∃ s' rec rec', markBoth d (markKey (d.candidate.policyKey H)) mark s = .ok () s' ∧
      rec.state = state ∧ rec'.state = state ∧
      S.view s' = putBoth H d.candidate (S.view s) rec rec' := by
  obtain ⟨r, hr, hstate⟩ := hd.policy
  obtain ⟨r', hr', hstate'⟩ := hd.legacy
  obtain ⟨s₁, hmark₁, hview₁⟩ := hkey s _ r hr hstate
  have hlegacy : S.view s₁ d.candidate.legacyKey = some r' := by
    rw [hview₁, Ledger.put_apply, if_neg (d.candidate.legacyKey_ne_policyKey H), hr']
  obtain ⟨s₂, hmark₂, hview₂⟩ := hmark.suppress s₁ _ r' hlegacy hstate'
  refine ⟨s₂, r.moved state none none, r'.moved state none none, ?_, rfl, rfl, ?_⟩
  · simp only [markBoth, hd.tracked.available, if_true, Call.bind_apply, hmark₁, markAlias,
      hd.tracked.aliased, hmark₂]
  · rw [hview₂, hview₁]
    rfl

/-- A phase that marks both keys and ends the turn. -/
theorem closed_effect {markKey mark : String → Call PyError S.State Unit} {state : DedupeState}
    {call : ExecutorCall} {a : Awaited ExecuteResult} {m : Move} {o : TurnOutcome}
    (hkey : Marks S markKey state) (hmark : Marks S mark state) (hd : d.Pending H (S.view s))
    (ha : a.settles = true) (hst : state = .acknowledged ∨ state = .unknownEffect)
    (hm : m.progress = .finished o) (hquiet : m.happened = []) :
    ∃ m' s', (Move.observed [.executed d.candidate a] <$> guarded t
        ((fun _ => m) <$> markBoth d (markKey (d.candidate.policyKey H)) mark)) s = .ok m' s' ∧
      Effect H (S.view s) (.executing d call) m'.happened m'.progress (S.view s') := by
  obtain ⟨s', rec, rec', hmarked, hrec, hrec', hview⟩ := markBoth_eval hkey hmark hd
  refine ⟨m.observed [.executed d.candidate a], s', ?_, ?_⟩
  · simp only [Call.map_apply, guarded, Call.tryCatch_apply, hmarked]
  · rw [hview]
    simp only [Move.observed, hquiet, hm, List.nil_append]
    exact .closed ha hst hrec hrec'

/-- **An execution that settles closes both keys; any other way to end leaves them.** -/
theorem executionEnded_effect {call : ExecutorCall} (hd : d.Pending H (S.view s))
    (ht : t.progress = .executing d call) (now : String) (a : Awaited ExecuteResult) :
    ∃ m s', executionEnded S.port H t d now a s = .ok m s' ∧
      Effect H (S.view s) (.executing d call) m.happened m.progress (S.view s') := by
  cases a with
  | returned result =>
    cases hack : result.acknowledged with
    | error e =>
      refine ⟨(Move.raise t.events (.exception e)).observed
        [.executed d.candidate (.returned result)], s, ?_, ?_⟩
      · simp only [executionEnded, executorReturned, hack, guarded, Call.map_apply,
          Call.tryCatch_apply, Call.throw_apply, Call.pure_apply]
      · exact .abandoned (by simp [Awaited.settles, hack, Except.toBool])
    | ok acknowledged =>
      have hsettles : (Awaited.returned result).settles = true := by
        simp [Awaited.settles, hack, Except.toBool]
      simp only [executionEnded, executorReturned, hack]
      cases acknowledged with
      | true =>
        exact closed_effect marks_acknowledged marks_acknowledged hd hsettles (.inl rfl) rfl rfl
      | false =>
        exact closed_effect marks_unknownEffect marks_unknownEffect hd hsettles (.inr rfl) rfl rfl
  | raised raised =>
    cases raised with
    | exception e =>
      exact closed_effect marks_unknownEffect.suppress marks_unknownEffect hd rfl (.inr rfl) rfl rfl
    | exit name =>
      exact ⟨(Move.raise t.events (.exit name)).observed
        [.executed d.candidate (.raised (.exit name))], s, rfl, .abandoned rfl⟩
  | timedOut =>
    refine ⟨_, s, rfl, ?_⟩
    unfold timedOut
    split
    · exact .abandoned rfl
    · rw [ht]
      exact .waiting

end

/-! ### Every step -/

section
variable (S : HealthyStore) (H : Digest) (t : Turn) (ports : Ports) (s : S.State)

theorem advance_effect (h : t.progress.Ready H (S.view s)) :
    ∃ m s', advance S.port H t ports s = .ok m s' ∧
      Effect H (S.view s) t.progress m.happened m.progress (S.view s') := by
  unfold advance
  cases hp : t.progress with
  | noopOrReasoning action =>
    have hearly : t.progress.early = true := by rw [hp]; rfl
    simp only
    split
    · exact ⟨_, s, rfl, (early_timedOut hearly).effect rfl H _⟩
    · exact ⟨_, s, rfl, (early_phaseNoopOrReasoning t ports action).effect rfl H _⟩
  | reasoning request =>
    have hearly : t.progress.early = true := by rw [hp]; rfl
    simp only
    cases ports.runOnce request with
    | returned actions => exact ⟨_, s, rfl, (early_reasoningReturned t actions).effect rfl H _⟩
    | raised r => exact ⟨_, s, rfl, (early_reasoningFailed t r).effect rfl H _⟩
    | timedOut => exact ⟨_, s, rfl, (early_timedOut hearly).effect rfl H _⟩
  | snapshot action => exact ⟨_, s, rfl, (early_phaseSnapshot H t ports action).effect rfl H _⟩
  | admission c => exact ⟨_, s, rfl, (early_phaseAdmission t c).effect rfl H _⟩
  | admitting c =>
    have hearly : t.progress.early = true := by rw [hp]; rfl
    simp only
    cases ports.evaluateAdmission c.action c.snapshot with
    | returned result => exact ⟨_, s, rfl, admissionReturned_effect H _ t c result⟩
    | raised r => exact ⟨_, s, rfl, (early_raise t.events r).effect rfl H _⟩
    | timedOut => exact ⟨_, s, rfl, (early_timedOut hearly).effect rfl H _⟩
  | dispatchPolicy c r => exact ⟨_, s, rfl, phaseDispatchPolicy_effect H _ t c r⟩
  | dedupe c r policy =>
    obtain ⟨m, s', hphase, heffect⟩ := phaseDedupe_effect S H t c r policy (s := s)
    refine ⟨m, s', ?_, heffect⟩
    simp only [guarded, Call.tryCatch_apply, hphase]
  | execute d => exact ⟨_, s, rfl, .invoked⟩
  | executing d call =>
    rw [hp] at h
    exact executionEnded_effect h hp _ _
  | finished outcome => exact ⟨_, s, rfl, .waiting⟩

/-- **Every step of a turn on a healthy store is one of the listed effects.** -/
theorem move_effect (h : t.progress.Ready H (S.view s)) :
    Effect H (S.view s) t.progress (t.move S.port H ports s).1.happened
      (t.move S.port H ports s).1.progress (S.view (t.move S.port H ports s).2) := by
  obtain ⟨m, s', hadvance, heffect⟩ := advance_effect S H t ports s h
  simp only [Turn.move, hadvance]
  exact heffect

end

end AgentKernel.Turns
