import AgentKernel.Workflow.Rollback

/-! Reconciliation and turns in flight.

Between its reservation and the end of its execution a turn holds two dispatched records
that no event of the log backs, which is what a reconciliation pass takes for a crash. A
pass that lists one of them loses it under the running executor. In a run where no pass
does, and no roll-back hits such a key either, every turn whose executor acknowledged has
returned as dispatched, with both of its records acknowledged, and stays so
(`acknowledged_turns_unbroken`). -/
namespace AgentKernel.Workflow
open Lib Dedupe Turns Events Projection Reconcile

/-! ### Healthy stores a pass can look into -/

/-- A healthy store that lists the keys of its records whose text belongs to a run. -/
structure HealthyOutbox where
  healthy : HealthyStore
  store : OutboxStore healthy.State
  port : store.port = healthy.port
  lists : String → String → Bool
  collects : ∀ s runId key,
    key ∈ store.collectDedupeKeys runId s ↔ healthy.view s key ≠ none ∧ lists runId key = true

namespace HealthyOutbox
variable (B : HealthyOutbox)

def inMemory : HealthyOutbox where
  healthy := InMemoryDedupeStore.healthy
  store := InMemoryDedupeStore.outboxStore
  port := rfl
  lists := InMemoryDedupeStore.outbox.lists
  collects := fun s => InMemoryDedupeStore.outbox.sound.collects s trivial

theorem sound : B.store.Sound (fun _ => True) B.healthy.view B.lists where
  follows := by
    intro c s hc hs
    rw [B.port]
    exact (B.healthy.keeps c s hc hs).mono (fun h => h.elim)
  exact := by
    rw [B.port]
    exact exact_of_keeps B.healthy.keeps (fun _ _ _ _ _ => trivial) (fun _ => trivial)
  collects := fun s _ => B.collects s

end HealthyOutbox

/-! ### Writes from outside the turns -/

/-- Records are written to for some keys only, never an acknowledged one, and none goes. -/
structure Hits (L L' : Ledger) (hit : String → Prop) : Prop where
  kept : ∀ key, L' key = L key ∨ hit key ∧ ¬ HasState L key .acknowledged
  present : ∀ key, L key ≠ none → L' key ≠ none

section
variable {L L' : Ledger} {hit : String → Prop}

theorem Hits.refl (L : Ledger) (hit : String → Prop) : Hits L L hit :=
  ⟨fun _ => .inl rfl, fun _ h => h⟩

theorem Hits.spared (h : Hits L L' hit) {key : String} (hkey : ¬ hit key) : L' key = L key := by
  rcases h.kept key with heq | ⟨hhit, -⟩
  · exact heq
  · exact absurd hhit hkey

theorem Hits.acknowledged (h : Hits L L' hit) {key : String} (hkey : HasState L key .acknowledged) :
    HasState L' key .acknowledged := by
  rcases h.kept key with heq | ⟨-, hno⟩
  · exact hkey.congr heq
  · exact absurd hkey hno

theorem lost_acknowledged {r : DedupeRecord} (h : r.state = .acknowledged) : lost r = r := by
  rw [lost, h]

end

/-- The keys a pass over a run loses: listed, and without an event of their own. -/
def orphaned {σ : Type} (O : OutboxStore σ) (runId : String)
    (loaded : Except PyError (List RuntimeEvent)) (s : σ) (key : String) : Prop :=
  ∃ events, loaded = .ok events ∧ key ∈ O.collectDedupeKeys runId s ∧
    key ∉ eventIdempotencyKeys events

theorem HealthyOutbox.hits_swept (B : HealthyOutbox) (s : B.healthy.State) (runId : String)
    (loaded : Except PyError (List RuntimeEvent)) :
    Hits (B.healthy.view s) (B.healthy.view ((reconcileLoaded B.store runId loaded).after s))
      (orphaned B.store runId loaded s) := by
  cases loaded with
  | error e => exact .refl _ _
  | ok events =>
    obtain ⟨result, s', hpass, -, -, hview⟩ :=
      B.sound.reconcileLoaded_spec events runId (s := s) trivial
    rw [(Call.outcome_ok hpass).2]
    constructor
    · intro key
      rw [hview]
      cases hrec : B.healthy.view s key with
      | none => simp
      | some r =>
        by_cases hhit : B.lists runId key = true ∧ key ∉ eventIdempotencyKeys events
        · rw [if_pos hhit]
          by_cases hack : r.state = .acknowledged
          · exact .inl (by rw [Option.map_some, lost_acknowledged hack])
          · have hlisted : key ∈ B.store.collectDedupeKeys runId s :=
              (B.collects s runId key).mpr ⟨by rw [hrec]; exact Option.some_ne_none r, hhit.1⟩
            refine .inr ⟨⟨events, rfl, hlisted, hhit.2⟩, ?_⟩
            intro hstate
            obtain ⟨r', hr', hstate⟩ := hstate
            rw [hrec] at hr'
            cases hr'
            exact hack hstate
        · exact .inl (if_neg hhit)
    · intro key hkey
      rw [hview]
      split
      · exact fun hnone => hkey (Option.map_eq_none_iff.mp hnone)
      · exact hkey

/-- A roll-back writes to its own key only. -/
theorem hits_rolledBack {S : HealthyStore} (s : S.State) (key : String) :
    Hits (S.view s) (S.view ((S.port.markUnknownEffect key).suppress.after s)) (· = key) := by
  have hafter : (S.port.markUnknownEffect key).suppress.after s =
      (perform S.port (.markUnknownEffect key)).after s := by
    rw [Call.after_suppress, perform, Call.after_map]
  rw [hafter]
  constructor
  · intro key'
    obtain ⟨-, heq | ⟨hfalse, -⟩⟩ := S.keeps (.markUnknownEffect key) s trivial trivial
    · have hview : S.view _ = _ := congrArg Prod.snd heq
      rw [hview]
      simp only [Ledger.answer, Ledger.mark]
      cases hrec : S.view s key with
      | none => exact .inl rfl
      | some r =>
        simp only
        split
        · rename_i hallowed
          by_cases hkey : key' = key
          · refine .inr ⟨hkey, ?_⟩
            intro hack
            obtain ⟨r', hr', hstate⟩ := hack
            rw [hkey, hrec] at hr'
            cases hr'
            rw [hstate] at hallowed
            exact absurd hallowed (by decide)
          · refine .inl ?_
            show (S.view s).put key _ key' = _
            rw [Ledger.put_apply, if_neg hkey]
        · exact .inl rfl
    · exact hfalse.elim
  · intro key' hkey
    obtain ⟨r, hr⟩ := Option.ne_none_iff_exists'.mp hkey
    obtain ⟨r', hr', -⟩ := HealthyStore.forward_after (.markUnknownEffect key) s key' r hr
    rw [hr']
    exact Option.some_ne_none r'

/-! ### Turns whose executor answered -/

/-- The state of the records of a turn, by whether its executor acknowledged. -/
def stateFor : Bool → DedupeState
  | true => .acknowledged
  | false => .unknownEffect

def kindFor : Bool → TurnOutcomeKind
  | true => .dispatched
  | false => .recoveryPending

section
variable {S : HealthyStore} {H : Digest}

/-- An execution that was answered, of a turn that holds its keys. -/
theorem executionEnded_answered {t : Turn} {d : Dispatch} {s : S.State}
    (hd : d.Pending H (S.view s)) (now : String) {result : ExecuteResult} {b : Bool}
    (hresult : result.acknowledged = .ok b) :
    ∃ m s', executionEnded S.port H t d now (.returned result) s = .ok m s' ∧
      (∃ r, m.progress = .finished (.returned r) ∧ r.outcomeKind = kindFor b) ∧
      HasState (S.view s') (d.candidate.policyKey H) (stateFor b) ∧
      HasState (S.view s') d.candidate.legacyKey (stateFor b) := by
  cases b with
  | true =>
    obtain ⟨s', rec, rec', hmarked, hrec, hrec', hview⟩ :=
      markBoth_eval (S := S) marks_acknowledged marks_acknowledged hd
    have hphase : markBoth d (S.port.markAcknowledged (d.candidate.identity H).dispatchDedupeKey none)
        (fun k => S.port.markAcknowledged k none) s = .ok () s' := hmarked
    refine ⟨(Move.return (acknowledgedResult H d now t.events) []).observed
      [.executed d.candidate (.returned result)], s', ?_, ⟨_, rfl, rfl⟩, ⟨rec, ?_, hrec⟩,
      ⟨rec', ?_, hrec'⟩⟩
    · simp only [executionEnded, executorReturned, hresult, Call.map_apply, guarded,
        Call.tryCatch_apply, hphase]
    · rw [hview, putBoth_policyKey]
    · rw [hview, putBoth_legacyKey]
  | false =>
    obtain ⟨s', rec, rec', hmarked, hrec, hrec', hview⟩ :=
      markBoth_eval (S := S) marks_unknownEffect marks_unknownEffect hd
    have hphase : markBoth d (S.port.markUnknownEffect (d.candidate.identity H).dispatchDedupeKey)
        S.port.markUnknownEffect s = .ok () s' := hmarked
    refine ⟨(Move.return (recoveryPendingResult H d result.items t.events) []).observed
      [.executed d.candidate (.returned result)], s', ?_, ⟨_, rfl, rfl⟩, ⟨rec, ?_, hrec⟩,
      ⟨rec', ?_, hrec'⟩⟩
    · simp only [executionEnded, executorReturned, hresult, Call.map_apply, guarded,
        Call.tryCatch_apply, hphase]
    · rw [hview, putBoth_policyKey]
    · rw [hview, putBoth_legacyKey]

/-- The turn has returned, and its outcome and both its records say whether the executor
acknowledged. -/
structure Settled (S : HealthyStore) (H : Digest) (e : System S.State) (k : Nat) (c : Candidate)
    (b : Bool) : Prop where
  returned : ∃ t result, e.turns[k]? = some t ∧ t.progress = .finished (.returned result) ∧
    result.outcomeKind = kindFor b
  policy : HasState (S.view e.store) (c.policyKey H) (stateFor b)
  legacy : HasState (S.view e.store) c.legacyKey (stateFor b)

theorem move_answered {t : Turn} {s : S.State} (hready : t.progress.Ready H (S.view s))
    (ports : Ports) {c : Candidate} {a : Awaited ExecuteResult} {b : Bool} (hb : Acknowledges a b)
    (hmem : .executed c a ∈ (t.move S.port H ports s).1.happened) :
    (∃ result, (t.move S.port H ports s).1.progress = .finished (.returned result) ∧
        result.outcomeKind = kindFor b) ∧
      HasState (S.view (t.move S.port H ports s).2) (c.policyKey H) (stateFor b) ∧
      HasState (S.view (t.move S.port H ports s).2) c.legacyKey (stateFor b) := by
  obtain ⟨d, call, hp⟩ := (move_effect S H t ports s hready).executing_of_executed hmem
  rw [hp] at hready
  obtain ⟨m, s', hended, hending⟩ := executionEnded_ending (S := S) (H := H) (s := s)
    hready.tracked.available hp ports.utcNowIso (ports.execute call)
  have hmove : t.move S.port H ports s = (m, s') := by
    simp only [Turn.move, advance, hp, hended]
  rw [hmove] at hmem ⊢
  have hanswer : c = d.candidate ∧ a = ports.execute call := by
    cases hending with
    | waiting _ hnone =>
      rw [hnone] at hmem
      cases hmem
    | raised _ hexecuted | returned _ hexecuted _ =>
      rw [hexecuted] at hmem
      cases List.mem_singleton.mp hmem
      exact ⟨rfl, rfl⟩
  obtain ⟨rfl, rfl⟩ := hanswer
  obtain ⟨result, hreturned, hresult⟩ := hb
  rw [hreturned] at hended
  obtain ⟨m', s'', hanswered, hsettled⟩ :=
    executionEnded_answered (t := t) hready ports.utcNowIso hresult
  rw [hended] at hanswered
  cases hanswered
  exact hsettled

/-- Every turn whose executor answered so is settled. -/
def AllSettled (S : HealthyStore) (H : Digest) (e : System S.State) (b : Bool) : Prop :=
  ∀ k c a, ⟨k, .executed c a⟩ ∈ e.trace → Acknowledges a b → Settled S H e k c b

variable {e : System S.State} {b : Bool}

/-- A step of a turn. -/
theorem AllSettled.moved (h : AllSettled S H e b) (howned : Owned S H e) (l : Turns.Label) :
    AllSettled S H (e.step S.port H l) b := by
  intro k c a hmem hb
  cases hturn : e.turns[l.turn]? with
  | none =>
    have hidle : e.step S.port H l = e := by
      unfold System.step
      rw [hturn]
    rw [hidle] at hmem ⊢
    exact h k c a hmem hb
  | some t =>
    have hstep := howned.stepped hturn
    rcases hstep.mem_trace.mp hmem with hold | ⟨rfl, hnew⟩
    · obtain ⟨⟨u, result, hu, hreturned, hkind⟩, hpolicy, hlegacy⟩ := h k c a hold hb
      have hended := finished_step S.port H l hu hreturned
      obtain ⟨hdispatched, -⟩ := (howned.recorded k u hu).of_executed (mem_historyOf.mpr hold)
      by_cases hk : k = l.turn
      · -- The turn had ended, so the step was idle.
        subst hk
        obtain rfl : u = t := Option.some.inj (hu.symm.trans hturn)
        have heffect := hstep.effect
        rw [hreturned] at heffect
        have hview := heffect.of_finished.2
        exact ⟨⟨u, result, hended, hreturned, hkind⟩, hpolicy.congr (by rw [hview]),
          hlegacy.congr (by rw [hview])⟩
      · obtain ⟨hframe, hframe'⟩ := howned.frame hstep hk (mem_historyOf.mp hdispatched)
        exact ⟨⟨u, result, hended, hreturned, hkind⟩, hpolicy.congr hframe, hlegacy.congr hframe'⟩
    · obtain ⟨⟨result, hreturned, hkind⟩, hpolicy, hlegacy⟩ :=
        move_answered (howned.ready _ t hturn) l.ports hb hnew
      have hstore : (e.step S.port H l).store = (t.move S.port H l.ports e.store).2 := by
        unfold System.step
        rw [hturn]
      exact ⟨⟨_, result, hstep.turn_self, hreturned, hkind⟩, hpolicy.congr (by rw [hstore]),
        hlegacy.congr (by rw [hstore])⟩

theorem AllSettled.started (h : AllSettled S H e b) (c : TurnCall) :
    AllSettled S H { e with turns := e.turns ++ [Turn.start c.engine c.input c.action] } b := by
  intro k c' a hmem hb
  obtain ⟨⟨t, result, ht, hreturned, hkind⟩, hpolicy, hlegacy⟩ := h k c' a hmem hb
  obtain ⟨hlt, -⟩ := List.getElem?_eq_some_iff.mp ht
  refine ⟨⟨t, result, ?_, hreturned, hkind⟩, hpolicy, hlegacy⟩
  show (e.turns ++ _)[k]? = some t
  rw [List.getElem?_append_left hlt]
  exact ht

/-- A write from outside leaves the acknowledged records alone. -/
theorem AllSettled.written (h : AllSettled S H e true) {store : S.State} {hit : String → Prop}
    (hhits : Hits (S.view e.store) (S.view store) hit) :
    AllSettled S H { e with store := store } true := by
  intro k c a hmem hack
  obtain ⟨hreturned, hpolicy, hlegacy⟩ := h k c a hmem hack
  exact ⟨hreturned, hhits.acknowledged hpolicy, hhits.acknowledged hlegacy⟩

end

/-! ### Steps that spare the turns in flight -/

section
variable {σ : Type}

/-- The keys of the turns between the dedupe phase and the end of their execution. -/
def flightKeys (H : Digest) (e : System σ) : List String :=
  e.turns.flatMap (fun t =>
    match t.progress.dispatch? with
    | some d => [d.candidate.policyKey H, d.candidate.legacyKey]
    | none => [])

theorem mem_flightKeys {H : Digest} {e : System σ} {k : Nat} {t : Turn} {d : Dispatch}
    (ht : e.turns[k]? = some t) (hd : t.progress.dispatch? = some d) :
    d.candidate.policyKey H ∈ flightKeys H e ∧ d.candidate.legacyKey ∈ flightKeys H e := by
  have hmem := List.mem_of_getElem? ht
  constructor
  · exact List.mem_flatMap.mpr ⟨t, hmem, by rw [hd]; exact List.mem_cons_self⟩
  · exact List.mem_flatMap.mpr ⟨t, hmem, by rw [hd]; exact List.mem_cons_of_mem _ List.mem_cons_self⟩

/-- The step runs no pass that lists a key of a turn in flight without an event, and rolls
back no such key. -/
def spares (K : Kernel σ) (w : World σ) : Label → Bool
  | .resume i _ =>
    match w.calls[i]? with
    | some (.answered (.sweeping runId _) (.ok events)) =>
      (K.outbox.collectDedupeKeys runId w.process.engine.store).all (fun key =>
        decide (key ∈ eventIdempotencyKeys events ∨ key ∉ flightKeys K.digest w.process.engine))
    | some (.answered (.intending _ result _) (.error _))
    | some (.answered (.recordingOutcome _ result _) (.error _)) =>
      result.dispatchDedupeKey.toList.all (fun key =>
        decide (key ∉ flightKeys K.digest w.process.engine))
    | _ => true
  | _ => true

variable {K : Kernel σ} {w : World σ} {i : Nat} {m : Moment}

theorem spares_swept {runId : String} {rest : List String} {reply : Stage.Reply (.sweeping runId rest)}
    {loaded : Except PyError (List RuntimeEvent)} (h : spares K w (.resume i m) = true)
    (hcall : w.calls[i]? = some (.answered (.sweeping runId rest) reply))
    (hloaded : ∀ events, loaded = .ok events → reply = .ok events) {key : String}
    (hkey : key ∈ flightKeys K.digest w.process.engine) :
    ¬ orphaned K.outbox runId loaded w.process.engine.store key := by
  intro horphaned
  obtain ⟨events, hok, hlisted, hevents⟩ := horphaned
  obtain rfl := hloaded events hok
  unfold spares at h
  simp only [hcall, List.all_eq_true] at h
  rcases of_decide_eq_true (h key hlisted) with h | h
  · exact hevents h
  · exact h hkey

theorem spares_rolledBack {st : Stage} {reply : st.Reply} {result : TurnResult} {key key' : String}
    (h : spares K w (.resume i m) = true) (hcall : w.calls[i]? = some (.answered st reply))
    (hlost : Unrecorded result st reply) (hresult : result.dispatchDedupeKey = some key)
    (hkey : key' ∈ flightKeys K.digest w.process.engine) : key' ≠ key := by
  intro he
  subst he
  unfold spares at h
  cases hlost with
  | intent | outcome =>
    simp only [hcall, hresult, Option.toList_some, List.all_cons, List.all_nil, Bool.and_true,
      decide_eq_true_eq] at h
    exact h hkey

end

section
variable {B : HealthyOutbox} {K : Kernel B.healthy.State} {w : World B.healthy.State}

/-- Both hold in every state of a run that spares the turns in flight. -/
structure Spared (B : HealthyOutbox) (H : Digest) (e : System B.healthy.State) : Prop where
  owned : Owned B.healthy H e
  settled : AllSettled B.healthy H e true

/-- A write that hits no key of a turn in flight. -/
theorem Spared.written {H : Digest} {e : System B.healthy.State} (h : Spared B H e)
    {store : B.healthy.State} {hit : String → Prop}
    (hhits : Hits (B.healthy.view e.store) (B.healthy.view store) hit)
    (hfree : ∀ key ∈ flightKeys H e, ¬ hit key) : Spared B H { e with store := store } where
  owned := by
    refine h.owned.written hhits.present ?_
    intro k t d ht hd
    obtain ⟨hpolicy, hlegacy⟩ := mem_flightKeys (H := H) ht hd
    exact ⟨hhits.spared (hfree _ hpolicy), hhits.spared (hfree _ hlegacy)⟩
  settled := h.settled.written hhits

theorem spared_step (hK : K.outbox = B.store) (h : Spared B K.digest w.process.engine) {l : Label}
    (hl : spares K w l = true) : Spared B K.digest (w.step K l).process.engine := by
  have hport : K.outbox.port = B.healthy.port := by rw [hK]; exact B.port
  have hstep := step_engine K w l
  generalize (w.step K l).process.engine = e at hstep
  cases hstep with
  | same => exact h
  | moved =>
    rw [hport]
    exact ⟨owned_step h.owned _, h.settled.moved h.owned _⟩
  | started c => exact ⟨h.owned.started c, h.settled.started c⟩
  | rolledBack hcall hlost hkey =>
    rw [hport]
    exact h.written (hits_rolledBack _ _)
      (fun key hflight => spares_rolledBack hl hcall hlost hkey hflight)
  | @swept i m runId rest reply loaded hcall hloaded =>
    have hspared : ∀ key ∈ flightKeys K.digest w.process.engine,
        ¬ orphaned K.outbox runId loaded w.process.engine.store key :=
      fun key hflight => spares_swept hl hcall hloaded hflight
    rw [hK] at hspared ⊢
    exact h.written (B.hits_swept _ runId loaded) hspared

end

/-- **Reconciliation leaves the turns in flight alone when it lists none of their keys.**
On every healthy store, in every run whose steps all spare the turns in flight, in every
state reached: a turn whose executor acknowledged has returned as dispatched, and its policy
record and its legacy record are both acknowledged. -/
theorem acknowledged_turns_unbroken (B : HealthyOutbox) (K : Kernel B.healthy.State)
    (hK : K.outbox = B.store) (journal : Journal) (store : B.healthy.State) (labels : List Label)
    (hspares : Along (World.step K) (fun w l => spares K w l = true) (World.fresh journal store)
      labels) (k : Nat) (c : Candidate) (a : Awaited ExecuteResult) (hack : Acknowledges a true) :
    let e := (run (World.step K) (World.fresh journal store) labels).process.engine
    ⟨k, .executed c a⟩ ∈ e.trace → Settled B.healthy K.digest e k c true := by
  intro e hmem
  have hfresh : Spared B K.digest (World.fresh journal store).process.engine :=
    ⟨owned_start store [], fun _ _ _ h => nomatch h⟩
  have hspared : Spared B K.digest e :=
    run_invariant_along (I := fun w : World B.healthy.State => Spared B K.digest w.process.engine)
      (fun w l hl h => spared_step hK h hl) hfresh labels hspares
  exact hspared.settled k c a hmem hack

namespace Sample

/-- The sample commit is processed to its end, and then its run is swept. -/
def sweptLater : List Label :=
  turned Turns.Sample.acknowledged ++ awaits 1 1 ++ .call (.reconcileOnce ["run"]) :: awaits 2 1

/-- The run is swept while the executor of the sample commit is running. -/
def sweptBetween : List Label :=
  awaits 1 4 ++ List.replicate 7 (.turn ⟨0, ports Turns.Sample.acknowledged⟩) ++
    .call (.reconcileOnce ["run"]) :: (awaits 2 1 ++
      .turn ⟨0, ports Turns.Sample.acknowledged⟩ :: awaits 1 2)

end Sample

/-- A sweep after the turn has ended breaks nothing. -/
theorem later_sweep_unbroken :
    ∃ c, Settled InMemoryDedupeStore.healthy Turns.Sample.digest
      (Sample.processing Sample.kernel Sample.sweptLater).process.engine 0 c true := by
  refine ⟨_, acknowledged_turns_unbroken HealthyOutbox.inMemory Sample.kernel rfl Journal.empty
    Dict.empty (Sample.written ++ .call (.processActionCommit Sample.actionCommit) ::
      Sample.sweptLater) (by decide) 0 _ _ ⟨_, rfl, rfl⟩ (List.mem_of_getElem? (i := 5) rfl)⟩

/-- A sweep while the executor runs takes the legacy record for an orphan: the executor
acknowledges, the turn returns as dispatched, and the record stays lost. -/
theorem sweep_breaks_turn_in_flight :
    ∃ c a, ⟨0, .executed c a⟩ ∈ (Sample.processing Sample.kernel
        Sample.sweptBetween).process.engine.trace ∧ Acknowledges a true ∧
      HasState (InMemoryDedupeStore.view (Sample.processing Sample.kernel
        Sample.sweptBetween).process.engine.store) c.legacyKey .unknownEffect ∧
      ¬ Settled InMemoryDedupeStore.healthy Turns.Sample.digest
        (Sample.processing Sample.kernel Sample.sweptBetween).process.engine 0 c true := by
  have hlost : HasState (InMemoryDedupeStore.view (Sample.processing Sample.kernel
      Sample.sweptBetween).process.engine.store) "run:act:1" .unknownEffect := by decide +kernel
  refine ⟨_, _, List.mem_of_getElem? (i := 5) rfl, ⟨_, rfl, rfl⟩, hlost, ?_⟩
  intro hsettled
  obtain ⟨r, hr, hstate⟩ := hsettled.legacy
  obtain ⟨r', hr', hstate'⟩ := hlost
  have hsame : some r = some r' := hr.symm.trans hr'
  cases hsame
  rw [hstate] at hstate'
  cases hstate'

end AgentKernel.Workflow
