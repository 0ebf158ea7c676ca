import AgentKernel.Turns.Ownership

/-! What becomes of the keys a turn has dispatched.

When the awaited execution settles, that is when the executor returned or raised an
`Exception`, both keys of the turn are marked before `run_turn` ends. When it ends in
any other way, a phase timeout or a cancellation among them, the handler is not
reached and both keys stay dispatched. `dispatched_keys_closed_iff` says exactly
this of every turn of every interleaving. -/
namespace AgentKernel.Turns
open Lib Dedupe

/-- The key's record says what became of the dispatch. -/
def Resolved (L : Ledger) (key : String) : Prop :=
  ∃ r, L key = some r ∧ (r.state = .acknowledged ∨ r.state = .unknownEffect)

theorem HasState.not_resolved {L : Ledger} {key : String} (h : HasState L key .dispatched) :
    ¬ Resolved L key := by
  obtain ⟨r, hr, hstate⟩ := h
  intro hresolved
  obtain ⟨r', hr', hstate'⟩ := hresolved
  rw [hr] at hr'
  cases hr'
  rw [hstate] at hstate'
  rcases hstate' with h | h <;> cases h

/-- What an execution that ended leaves of a key. -/
def Fate (L : Ledger) (a : Awaited ExecuteResult) (key : String) : Prop :=
  if a.settles then Resolved L key else HasState L key .dispatched

theorem Fate.congr {L L' : Ledger} {a : Awaited ExecuteResult} {key : String} (h : Fate L a key)
    (hkey : L' key = L key) : Fate L' a key := by
  unfold Fate Resolved HasState at *
  rw [hkey]
  exact h

theorem fate_resolved_iff {L : Ledger} {a : Awaited ExecuteResult} {key : String}
    (h : Fate L a key) : Resolved L key ↔ a.settles = true := by
  unfold Fate at h
  split at h
  · rename_i hsettles
    exact ⟨fun _ => hsettles, fun _ => h⟩
  · rename_i hsettles
    exact ⟨fun hresolved => absurd hresolved h.not_resolved, fun hs => absurd hs hsettles⟩

section
variable {H : Digest} {L L' : Ledger} {p p' : Progress} {history new : List Happening}

/-- A turn whose execution ended was dispatched, and has ended. -/
theorem Recorded.of_executed (hr : Recorded H p history) {c : Candidate}
    {a : Awaited ExecuteResult} (h : .executed c a ∈ history) :
    .dispatched c ∈ history ∧ ∃ o, p = .finished o := by
  cases hr with
  | finished hended => cases hended <;> simp_all [takenHistory]
  | _ => simp_all [takenHistory]

/-- An execution that was started has ended when the turn has. -/
theorem Recorded.executed_of_execute {o : TurnOutcome} (hr : Recorded H (.finished o) history)
    {c : Candidate} {call : ExecutorCall} (h : .execute c call ∈ history) :
    ∃ a, .executed c a ∈ history := by
  cases hr with
  | early hp => cases hp
  | finished hended =>
    cases hended with
    | executed c' call' a hadmitted =>
      refine ⟨a, ?_⟩
      simp_all [takenHistory]
    | _ => simp at h

/-- A dispatched turn that has ended has ended its execution. -/
theorem Recorded.executed_of_dispatched {o : TurnOutcome} (hr : Recorded H (.finished o) history)
    {c : Candidate} (h : .dispatched c ∈ history) : ∃ a, .executed c a ∈ history := by
  cases hr with
  | early hp => cases hp
  | finished hended =>
    cases hended with
    | executed c' call' a hadmitted =>
      refine ⟨a, ?_⟩
      simp_all [takenHistory]
    | _ => simp at h

/-- A turn ends one execution at most. -/
theorem Recorded.executed_once (hr : Recorded H p history) {c c' : Candidate}
    {a a' : Awaited ExecuteResult} (h : .executed c a ∈ history) (h' : .executed c' a' ∈ history) :
    a = a' := by
  cases hr with
  | finished hended =>
    cases hended with
    | executed c'' call b hadmitted => simp_all [takenHistory]
    | _ => simp at h
  | _ => simp [takenHistory] at h

/-- An execution ends in the turn that awaits it. -/
theorem Effect.executing_of_executed (h : Effect H L p new p' L') {c : Candidate}
    {a : Awaited ExecuteResult} (hc : .executed c a ∈ new) : ∃ d call, p = .executing d call := by
  cases h with
  | closed _ _ _ _ => exact ⟨_, _, rfl⟩
  | abandoned _ => exact ⟨_, _, rfl⟩
  | _ => simp at hc

/-- An ended turn does nothing more. -/
theorem Effect.of_finished {o : TurnOutcome} (h : Effect H L (.finished o) new p' L') :
    new = [] ∧ L' = L := by
  cases h with
  | early hp _ => cases hp
  | waiting => exact ⟨rfl, rfl⟩

/-- The step that ends an execution decides the fate of both keys. -/
theorem Effect.fate (h : Effect H L p new p' L') (hr : p.Ready H L) {c : Candidate}
    {a : Awaited ExecuteResult} (hc : .executed c a ∈ new) :
    Fate L' a (c.policyKey H) ∧ Fate L' a c.legacyKey := by
  cases h with
  | closed hsettles hst hrec hrec' =>
    simp only [List.mem_singleton, Happening.executed.injEq] at hc
    obtain ⟨rfl, rfl⟩ := hc
    unfold Fate
    rw [if_pos hsettles, if_pos hsettles]
    exact ⟨⟨_, putBoth_policyKey _ _ _ _ _, hrec ▸ hst⟩, ⟨_, putBoth_legacyKey _ _ _ _ _, hrec' ▸ hst⟩⟩
  | abandoned hsettles =>
    simp only [List.mem_singleton, Happening.executed.injEq] at hc
    obtain ⟨rfl, rfl⟩ := hc
    unfold Fate
    rw [hsettles]
    exact ⟨hr.policy, hr.legacy⟩
  | _ => simp at hc

end

section
variable {S : HealthyStore} {H : Digest} {s s' : System S.State}

/-- Every execution that ended has left its keys to their fate. -/
def Fated (S : HealthyStore) (H : Digest) (s : System S.State) : Prop :=
  ∀ i c a, ⟨i, .executed c a⟩ ∈ s.trace →
    Fate (S.view s.store) a (c.policyKey H) ∧ Fate (S.view s.store) a c.legacyKey

theorem Owned.fated_step (h : Owned S H s) {i : Nat} {t : Turn} {m : Move}
    (hstep : Stepped S H s s' i t m) (hs : Fated S H s) : Fated S H s' := by
  intro j c a hc
  rcases hstep.mem_trace.mp hc with hc | ⟨rfl, hc⟩
  · obtain ⟨hpolicy, hlegacy⟩ := hs j c a hc
    have hhistory := mem_historyOf.mpr hc
    by_cases hj : j = i
    · -- The turn has ended, so the step was idle.
      subst hj
      obtain ⟨-, o, hp⟩ := (h.recorded j t hstep.turn).of_executed hhistory
      have heffect := hstep.effect
      rw [hp] at heffect
      rw [heffect.of_finished.2]
      exact ⟨hpolicy, hlegacy⟩
    · cases hu : s.turns[j]? with
      | none =>
        rw [h.within j hu] at hhistory
        cases hhistory
      | some u =>
        obtain ⟨hdispatched, -⟩ := (h.recorded j u hu).of_executed hhistory
        obtain ⟨hframe, hframe'⟩ := h.frame hstep hj (mem_historyOf.mp hdispatched)
        exact ⟨hpolicy.congr hframe, hlegacy.congr hframe'⟩
  · exact hstep.effect.fate (h.ready j t hstep.turn) hc

theorem interleaved_fated (S : HealthyStore) (H : Digest) (store : S.State)
    (calls : List TurnCall) (labels : List Label) :
    Fated S H (interleaved S.port H store calls labels) :=
  interleaved_invariant (P := Fated S H) (fun _ _ _ hc => by cases hc)
    (fun _ _ _ _ _ howned hstep hs => howned.fated_step hstep hs) labels

/-- The keys a turn moved to dispatched when its execution ended. -/
theorem Recorded.reserved_iff {o : TurnOutcome} {history : List Happening}
    (hr : Recorded H (.finished o) history) :
    (∀ key, .reservation key true ∉ history) ∧ (∀ c a, .executed c a ∉ history) ∨
      ∃ c a, .executed c a ∈ history ∧ (∀ c' a', .executed c' a' ∈ history → c' = c ∧ a' = a) ∧
        ∀ key, .reservation key true ∈ history ↔ key = c.policyKey H ∨ key = c.legacyKey := by
  cases hr with
  | early hp => cases hp
  | finished hended =>
    cases hended with
    | executed c call a hadmitted =>
      refine .inr ⟨c, a, by simp [takenHistory], ?_, ?_⟩
      · simp [takenHistory]
      · simp [takenHistory]
    | _ => exact .inl (by simp)

end

/-- **The keys a turn dispatched are closed when it has ended, exactly when its
execution settled**, in every interleaving of any turns over a healthy store. -/
theorem dispatched_keys_closed_iff (S : HealthyStore) (H : Digest) (store : S.State)
    (calls : List TurnCall) (labels : List Label) (i : Nat) (t : Turn) (o : TurnOutcome)
    (hturn : (interleaved S.port H store calls labels).turns[i]? = some t)
    (hended : t.progress = .finished o) :
    (∀ key, ⟨i, .reservation key true⟩ ∈ (interleaved S.port H store calls labels).trace →
      Resolved (S.view (interleaved S.port H store calls labels).store) key) ↔
    (∀ c a, ⟨i, .executed c a⟩ ∈ (interleaved S.port H store calls labels).trace →
      a.settles = true) := by
  have hrecorded := (interleaved_owned S H store calls labels).recorded i t hturn
  have hfated := interleaved_fated S H store calls labels
  generalize interleaved S.port H store calls labels = s at hrecorded hfated ⊢
  rw [hended] at hrecorded
  simp only [← mem_historyOf]
  rcases hrecorded.reserved_iff with ⟨hno, hnone⟩ | ⟨c, a, hmem, hunique, hkeys⟩
  · exact ⟨fun _ c a h => absurd h (hnone c a), fun _ key h => absurd h (hno key)⟩
  · obtain ⟨hpolicy, hlegacy⟩ := hfated i c a (mem_historyOf.mp hmem)
    constructor
    · intro h c' a' hc'
      obtain ⟨rfl, rfl⟩ := hunique c' a' hc'
      exact (fate_resolved_iff hpolicy).mp (h _ ((hkeys _).mpr (.inl rfl)))
    · intro h key hkey
      rcases (hkeys key).mp hkey with rfl | rfl
      · exact (fate_resolved_iff hpolicy).mpr (h c a hmem)
      · exact (fate_resolved_iff hlegacy).mpr (h c a hmem)

/-- One sample turn on an empty in-memory store. -/
def sampleRun (engine : TurnEngine) (answer : Awaited ExecuteResult) :
    System InMemoryDedupeStore.healthy.State :=
  interleaved InMemoryDedupeStore.healthy.port Sample.digest Dict.empty
    [Sample.call engine "run" "act"] (Sample.wholeTurn 0 answer)

/-- Whether every execution of a trace settled. -/
def allSettle (trace : List Observation) : Bool :=
  trace.all (fun o => match o.what with
    | .executed _ a => a.settles
    | _ => true)

theorem acknowledged_turn_closed :
    Resolved (InMemoryDedupeStore.view (sampleRun {} Sample.acknowledged).store)
        ("dispatch:run:act:" ++ Sample.contentHash) ∧
      Resolved (InMemoryDedupeStore.view (sampleRun {} Sample.acknowledged).store) "run:act:1" := by
  have hclosed := (dispatched_keys_closed_iff InMemoryDedupeStore.healthy Sample.digest Dict.empty
    [Sample.call {} "run" "act"] (Sample.wholeTurn 0 Sample.acknowledged) 0 _ _ rfl rfl).mpr (by
      intro c a h
      have hsettle : allSettle (sampleRun {} Sample.acknowledged).trace = true := rfl
      exact List.all_eq_true.mp hsettle ⟨0, .executed c a⟩ h)
  constructor
  · exact hclosed _ (List.mem_of_getElem? (i := 1) rfl)
  · exact hclosed _ (List.mem_of_getElem? (i := 2) rfl)

/-- The executor is still running when the phase timeout of 50 ms expires: `run_turn`
raises `TimeoutError` and the policy key stays dispatched. -/
theorem timed_out_turn_left_dispatched :
    (∃ t, (sampleRun { phaseTimeoutMs := some 50 } .timedOut).turns[0]? = some t ∧
      t.progress = .finished (.raised (.exception timeoutError))) ∧
    ¬ ∀ key, ⟨0, .reservation key true⟩ ∈
        (sampleRun { phaseTimeoutMs := some 50 } .timedOut).trace →
      Resolved (InMemoryDedupeStore.view
        (sampleRun { phaseTimeoutMs := some 50 } .timedOut).store) key := by
  refine ⟨⟨_, rfl, rfl⟩, fun h => ?_⟩
  have hresolved := h ("dispatch:run:act:" ++ Sample.contentHash) (List.mem_of_getElem? (i := 1) rfl)
  have hstate : HasState (InMemoryDedupeStore.view
      (sampleRun { phaseTimeoutMs := some 50 } .timedOut).store)
      ("dispatch:run:act:" ++ Sample.contentHash) .dispatched := ⟨_, rfl, rfl⟩
  exact hstate.not_resolved hresolved

end AgentKernel.Turns
