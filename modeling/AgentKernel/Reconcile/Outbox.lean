import Mathlib.Data.List.Dedup
import AgentKernel.Dedupe.Healthy
import AgentKernel.Persistence.AtomicRecord

/-! The outbox reconciler.

`averify_event_dedupe_consistency` compares the dedupe keys a store lists for a run with
the idempotency keys of the run's events; `DispatchOutboxReconciler` repairs what it
finds. Which keys a store lists is decided by the text of the key alone: those that
start with the run id and a colon in memory, those a `LIKE` pattern matches in SQLite.

`reconcileLoaded_spec` says what a pass does to the ledger, for every store that keeps
one: a listed key without an event of its own is lost if it is still open, and nothing
else changes. -/
namespace AgentKernel.Reconcile
open Lib Dedupe

/-! ### The checker -/

inductive ViolationKind where
  | orphanedDedupeKey
  | unknownEffectNoLogEvidence
  | eventLogUnavailable
  deriving DecidableEq, Repr

structure ConsistencyViolation where
  kind : ViolationKind
  idempotencyKey : Option String
  dedupeState : Option DedupeState
  eventCount : Option Nat
  detail : String
  deriving DecidableEq, Repr

structure ConsistencyReport where
  runId : String
  violations : List ConsistencyViolation := []
  eventsChecked : Nat := 0
  dedupeKeysChecked : Nat := 0
  deriving DecidableEq, Repr

/-- A dedupe store as the reconciler sees it: its port, and the keys
`_collect_dedupe_keys` finds in its internals for a run. -/
structure OutboxStore (σ : Type) where
  port : DedupeStorePort σ
  collectDedupeKeys : String → σ → List String

/-- The idempotency keys of the events; an empty one counts as absent. -/
def eventIdempotencyKeys (events : List RuntimeEvent) : List String :=
  events.filterMap (fun event => Text.orElse event.idempotencyKey none)

/-- The event types found under a key. -/
def foundTypes (events : List RuntimeEvent) (key : String) : List String :=
  ((events.filter (fun event => Text.orElse event.idempotencyKey none = some key ∧
    event.eventType ≠ "")).map RuntimeEvent.eventType).dedup

/-- The types of events that say that a dispatch took place. -/
def dispatchEvidence : List String := ["turn.dispatched", "turn.effect_unknown", "turn.effect_recorded"]

def hasDispatchEvidence (events : List RuntimeEvent) (key : String) : Bool :=
  (foundTypes events key).any (fun eventType => eventType ∈ dispatchEvidence)

def orphanedDetail (runId key : String) (state : DedupeState) : String :=
  "DedupeStore key " ++ Text.quoted key ++ " (state=" ++ Text.quoted state.text ++
    ") has no matching event in the EventLog for run " ++ Text.quoted runId ++
    ". Possible crash between reserve() and event append."

def noEvidenceDetail (runId key : String) : String :=
  "DedupeStore key " ++ Text.quoted key ++ " is in state 'unknown_effect' " ++
    "but no dispatch/effect event was found in the EventLog for run " ++ Text.quoted runId ++
    ". Human review recommended."

/-- What the checker says about a key and its record. -/
def violationOf (events : List RuntimeEvent) (runId key : String) (record : DedupeRecord) :
    Option ConsistencyViolation :=
  if key ∉ eventIdempotencyKeys events then
    some
      { kind := .orphanedDedupeKey
        idempotencyKey := some key
        dedupeState := some record.state
        eventCount := some 0
        detail := orphanedDetail runId key record.state }
  else if record.state = .unknownEffect ∧ ¬ hasDispatchEvidence events key then
    some
      { kind := .unknownEffectNoLogEvidence
        idempotencyKey := some key
        dedupeState := some .unknownEffect
        eventCount := some (foundTypes events key).length
        detail := noEvidenceDetail runId key }
  else none

section
variable {σ : Type}

/-- The loop of `_detect_violations` over the listed keys. -/
def detectKeys (S : DedupeStorePort σ) (events : List RuntimeEvent) (runId : String) :
    List String → Call PyError σ (List ConsistencyViolation)
  | [] => pure []
  | key :: rest => do
    let record ← S.get key
    let violations ← detectKeys S events runId rest
    pure ((record.bind (violationOf events runId key)).toList ++ violations)

def detectViolations (O : OutboxStore σ) (events : List RuntimeEvent) (runId : String) :
    Call PyError σ ConsistencyReport := do
  let store ← EStateM.get
  let keys := O.collectDedupeKeys runId store
  let violations ← detectKeys O.port events runId keys
  pure
    { runId := runId
      violations := violations
      eventsChecked := events.length
      dedupeKeysChecked := keys.length }

/-- `averify_event_dedupe_consistency`, from what loading the run's events gave. -/
def verifyLoaded (O : OutboxStore σ) (runId : String)
    (loaded : Except PyError (List RuntimeEvent)) : Call PyError σ ConsistencyReport :=
  match loaded with
  | .ok events => detectViolations O events runId
  | .error e => pure
      { runId := runId
        violations :=
          [{ kind := .eventLogUnavailable
             idempotencyKey := none
             dedupeState := none
             eventCount := none
             detail := "event_log.load(" ++ Text.quoted runId ++ ") raised: " ++ e.message }] }

/-! ### The reconciler -/

inductive ActionTaken where
  | markedUnknownEffect
  | loggedForReview
  | skipped
  deriving DecidableEq, Repr

structure ReconciliationAction where
  idempotencyKey : String
  violationKind : ViolationKind
  actionTaken : ActionTaken
  detail : String
  deriving DecidableEq, Repr

structure ReconciliationResult where
  runId : String
  actions : List ReconciliationAction
  violationsFound : Nat
  violationsRepaired : Nat
  deriving DecidableEq, Repr

/-- What became of an orphaned key, and the detail of the action. -/
abbrev Repair := ActionTaken × String

def terminalDetail (key : String) (state : DedupeState) : String :=
  "Key " ++ Text.quoted key ++ " is already in terminal state " ++ Text.quoted state.text ++
    "; no transition required."

/-- The state is absent when neither the store nor the violation knows it. -/
def unrecognisedDetail (key : String) (state : Option DedupeState) : String :=
  "Key " ++ Text.quoted key ++ " has unrecognised state " ++
    ((state.map (fun s => Text.quoted s.text)).getD "None") ++
    "; cannot determine safe repair action."

def repairedDetail (key : String) (state : DedupeState) : String :=
  "Key " ++ Text.quoted key ++ " was in state " ++ Text.quoted state.text ++
    " with no event log evidence; transitioned to 'unknown_effect' for recovery surface."

def reviewDetail (runId key : String) : String :=
  "Key " ++ Text.quoted key ++ " is 'unknown_effect' with no event log evidence for run " ++
    Text.quoted runId ++ ". Logged at WARNING for human review."

/-- The marks of a repair. Only a record still reserved or dispatched gets any. -/
def repairMarks (S : DedupeStorePort σ) (key : String) (state : Option DedupeState) :
    Call PyError σ Repair :=
  match state with
  | some .acknowledged => pure (.skipped, terminalDetail key .acknowledged)
  | some .unknownEffect => pure (.skipped, terminalDetail key .unknownEffect)
  | some .reserved => do
    S.markDispatched key none
    S.markUnknownEffect key
    pure (.markedUnknownEffect, repairedDetail key .reserved)
  | some .dispatched => do
    S.markUnknownEffect key
    pure (.markedUnknownEffect, repairedDetail key .dispatched)
  | state => pure (.skipped, unrecognisedDetail key state)

/-- A `DedupeStoreStateError` of the marks is a skipped repair. -/
def skipStateError (e : PyError) : Call PyError σ Repair :=
  if e.kind = .dedupeStoreStateError then
    pure (.skipped, "DedupeStoreStateError during repair: " ++ e.message)
  else throw e

def repairOrphanedKey (S : DedupeStorePort σ) (key : String) (v : ConsistencyViolation) :
    Call PyError σ Repair := do
  let record ← S.get key
  let currentState := match record with
    | some record => some record.state
    | none => v.dedupeState
  tryCatch (repairMarks S key currentState) skipStateError

def repairViolation (S : DedupeStorePort σ) (runId : String) (v : ConsistencyViolation) :
    Call PyError σ ReconciliationAction :=
  let key := v.idempotencyKey.getD ""
  match v.kind with
  | .orphanedDedupeKey =>
    (fun r => ⟨key, .orphanedDedupeKey, r.1, r.2⟩) <$> repairOrphanedKey S key v
  | .unknownEffectNoLogEvidence =>
    pure ⟨key, .unknownEffectNoLogEvidence, .loggedForReview, reviewDetail runId key⟩
  | .eventLogUnavailable =>
    pure ⟨key, .eventLogUnavailable, .skipped,
      "Unknown violation kind 'event_log_unavailable'; skipped conservatively."⟩

def repairAll (S : DedupeStorePort σ) (runId : String) :
    List ConsistencyViolation → Call PyError σ (List ReconciliationAction)
  | [] => pure []
  | v :: rest => do
    let action ← repairViolation S runId v
    let actions ← repairAll S runId rest
    pure (action :: actions)

def applyRepairs (S : DedupeStorePort σ) (report : ConsistencyReport) :
    Call PyError σ ReconciliationResult := do
  let actions ← repairAll S report.runId report.violations
  pure
    { runId := report.runId
      actions := actions
      violationsFound := report.violations.length
      violationsRepaired := (actions.filter (fun a => a.actionTaken ≠ .skipped)).length }

/-- `reconcile`, from what loading the run's events gave. Nothing is awaited from here
on, so it is one step. -/
def reconcileLoaded (O : OutboxStore σ) (runId : String)
    (loaded : Except PyError (List RuntimeEvent)) : Call PyError σ ReconciliationResult := do
  let report ← verifyLoaded O runId loaded
  applyRepairs O.port report

/-! ### What a pass does to the ledger -/

/-- The domain of a store that always has room for marks and reads. -/
def marksOnly : Domain := ⟨fun _ _ _ => False, fun _ _ _ _ _ => True, fun _ => True⟩

/-- A store that keeps a ledger, never fails on marks and reads, and lists the keys of
its records whose text belongs to the run. -/
structure OutboxStore.Sound (O : OutboxStore σ) (Inv : σ → Prop) (view : σ → Ledger)
    (lists : String → String → Bool) : Prop where
  follows : Keeps O.port True .all Inv view
  exact : Keeps O.port False marksOnly Inv view
  collects : ∀ s, Inv s → ∀ runId key,
    key ∈ O.collectDedupeKeys runId s ↔ view s key ≠ none ∧ lists runId key = true

end

/-- An open record is lost; any other stays as it is. -/
def lost (r : DedupeRecord) : DedupeRecord :=
  match r.state with
  | .reserved | .dispatched => { r with state := .unknownEffect }
  | _ => r

/-- The ledger after the repair of a key. -/
def lose (L : Ledger) (key : String) : Ledger :=
  match L key with
  | some r => L.put key (lost r)
  | none => L

theorem lose_apply (L : Ledger) (key key' : String) :
    lose L key key' = if key' = key then (L key').map lost else L key' := by
  unfold lose
  cases hkey : L key with
  | none =>
    by_cases h : key' = key
    · simp [h, hkey]
    · simp [h]
  | some r =>
    simp only [Ledger.put_apply]
    by_cases h : key' = key
    · simp [h, hkey]
    · simp [h]

/-- Losing a record that is not open changes nothing. -/
theorem put_same {L : Ledger} {key : String} {r : DedupeRecord} (h : L key = some r) :
    L.put key r = L := by
  unfold Ledger.put
  rw [← h, Function.update_eq_self]

theorem lost_lost (r : DedupeRecord) : lost (lost r) = lost r := by
  unfold lost
  cases hs : r.state <;> simp [hs]

/-- Repairing keys one after the other. -/
theorem foldl_lose_apply (L : Ledger) (keys : List String) (key : String) :
    keys.foldl lose L key = if key ∈ keys then (L key).map lost else L key := by
  induction keys generalizing L with
  | nil => simp
  | cons k rest ih =>
    rw [List.foldl_cons, ih, lose_apply]
    by_cases hk : key = k
    · subst hk
      simp only [if_true, List.mem_cons_self, Option.map_map]
      have hidem : lost ∘ lost = lost := funext lost_lost
      rw [hidem, ite_self]
    · simp [hk]

/-- The violations a pass finds. -/
def found (L : Ledger) (events : List RuntimeEvent) (runId : String) (keys : List String) :
    List ConsistencyViolation :=
  keys.filterMap (fun key => (L key).bind (violationOf events runId key))

/-- The keys of the orphans among the violations. -/
def orphans (violations : List ConsistencyViolation) : List String :=
  (violations.filter (fun v => v.kind = .orphanedDedupeKey)).map (fun v => v.idempotencyKey.getD "")

/-- A violation is about a key of the list that has a record. -/
theorem mem_found_iff {L : Ledger} {events : List RuntimeEvent} {runId : String} {keys : List String}
    {v : ConsistencyViolation} :
    v ∈ found L events runId keys ↔
      ∃ key ∈ keys, ∃ r, L key = some r ∧ violationOf events runId key r = some v := by
  simp only [found, List.mem_filterMap, Option.bind_eq_some_iff]

theorem violationOf_key {events : List RuntimeEvent} {runId key : String} {r : DedupeRecord}
    {v : ConsistencyViolation} (h : violationOf events runId key r = some v) :
    v.idempotencyKey = some key ∧
      (v.kind = .orphanedDedupeKey ↔ key ∉ eventIdempotencyKeys events) := by
  unfold violationOf at h
  split at h
  · rename_i hkey
    cases h
    exact ⟨rfl, iff_of_true rfl hkey⟩
  · rename_i hkey
    split at h
    · cases h
      exact ⟨rfl, iff_of_false (by simp) hkey⟩
    · cases h

/-- The orphans are the listed keys with a record and without an event. -/
theorem mem_orphans_found_iff {L : Ledger} {events : List RuntimeEvent} {runId : String}
    {keys : List String} {key : String} :
    key ∈ orphans (found L events runId keys) ↔
      key ∈ keys ∧ L key ≠ none ∧ key ∉ eventIdempotencyKeys events := by
  simp only [orphans, List.mem_map, List.mem_filter, mem_found_iff, decide_eq_true_eq]
  constructor
  · intro hmem
    obtain ⟨v, ⟨⟨k, hk, r, hr, hv⟩, horphan⟩, rfl⟩ := hmem
    obtain ⟨hkey, hiff⟩ := violationOf_key hv
    rw [hkey, Option.getD_some]
    exact ⟨hk, by rw [hr]; exact Option.some_ne_none r, hiff.mp horphan⟩
  · intro hmem
    obtain ⟨hk, hpresent, hevents⟩ := hmem
    obtain ⟨r, hr⟩ := Option.ne_none_iff_exists'.mp hpresent
    refine ⟨_, ⟨⟨key, hk, r, hr, by rw [violationOf, if_pos hevents]⟩, rfl⟩, rfl⟩

theorem orphans_cons (v : ConsistencyViolation) (rest : List ConsistencyViolation) :
    orphans (v :: rest) = orphans [v] ++ orphans rest := by
  simp only [orphans, List.filter_cons]
  split <;> simp

namespace OutboxStore.Sound
variable {σ : Type} {O : OutboxStore σ} {Inv : σ → Prop} {view : σ → Ledger}
  {lists : String → String → Bool} (h : O.Sound Inv view lists)
include h

theorem get_eval {s : σ} (hs : Inv s) (key : String) :
    ∃ s', O.port.get key s = .ok (view s key) s' ∧ view s' = view s ∧ Inv s' :=
  h.exact.eval_ok (fun _ _ h => LedgerAnswer.record.inj h) (c := .get key) rfl trivial hs rfl

/-- A mark of a record that allows it moves the record. -/
theorem mark_allowed {x : Call PyError σ Unit} {c : LedgerCall} {m : Mark} {key : String}
    (hx : perform O.port c = (fun _ => LedgerAnswer.done) <$> x) (hw : ∀ L, c.Within marksOnly L)
    (hc : ∀ L : Ledger, L.answer c = L.marked (L.mark m key none none)) {s : σ} (hs : Inv s)
    {r : DedupeRecord} (hr : view s key = some r) (hallowed : r.state ∈ m.allowed) :
    ∃ s', x s = .ok () s' ∧ view s' = (view s).put key { r with state := m.target } ∧ Inv s' :=
  h.exact.eval_ok (fun _ _ _ => rfl) (s := s) (a := ())
    (L := (view s).put key { r with state := m.target }) hx (hw _) hs (by
      rw [hc]
      simp only [Ledger.mark, hr, if_pos hallowed, Ledger.marked]
      rfl)

theorem detectKeys_eval (events : List RuntimeEvent) (runId : String) (keys : List String) {s : σ}
    (hs : Inv s) :
    ∃ s', detectKeys O.port events runId keys s =
        .ok (keys.filterMap (fun key => (view s key).bind (violationOf events runId key))) s' ∧
      view s' = view s ∧ Inv s' := by
  induction keys generalizing s with
  | nil => exact ⟨s, rfl, rfl, hs⟩
  | cons key rest ih =>
    obtain ⟨s₁, hget, hview₁, hs₁⟩ := h.get_eval hs key
    obtain ⟨s₂, hrest, hview₂, hs₂⟩ := ih hs₁
    refine ⟨s₂, ?_, hview₂.trans hview₁, hs₂⟩
    simp only [detectKeys, Call.bind_apply, hget, hrest, hview₁, Call.pure_apply,
      List.filterMap_cons]
    cases (view s key).bind (violationOf events runId key) <;> rfl

/-- The two marks of an open record. -/
theorem markDispatched_eval {s : σ} (hs : Inv s) {key : String} {r : DedupeRecord}
    (hr : view s key = some r) (hstate : r.state = .reserved) :
    ∃ s', O.port.markDispatched key none s = .ok () s' ∧
      view s' = (view s).put key { r with state := .dispatched } ∧ Inv s' :=
  h.mark_allowed (c := .markDispatched key none) (m := .dispatched) rfl (fun _ => trivial)
    (fun _ => rfl) hs hr (by rw [hstate]; decide)

theorem markUnknownEffect_eval {s : σ} (hs : Inv s) {key : String} {r : DedupeRecord}
    (hr : view s key = some r) (hstate : r.state = .dispatched) :
    ∃ s', O.port.markUnknownEffect key s = .ok () s' ∧
      view s' = (view s).put key { r with state := .unknownEffect } ∧ Inv s' :=
  h.mark_allowed (c := .markUnknownEffect key) (m := .unknownEffect) rfl (fun _ => trivial)
    (fun _ => rfl) hs hr (by rw [hstate]; decide)

/-- The marks of a repair leave the record lost. -/
theorem repairMarks_eval {s : σ} (hs : Inv s) {key : String} {r : DedupeRecord}
    (hr : view s key = some r) :
    ∃ done s', repairMarks O.port key (some r.state) s = .ok done s' ∧
      view s' = (view s).put key (lost r) ∧ Inv s' := by
  have hskipped : lost r = r → ∀ done : Repair,
      ∃ done' s', (pure done : Call PyError σ Repair) s = .ok done' s' ∧
        view s' = (view s).put key (lost r) ∧ Inv s' := by
    intro hsame done
    exact ⟨done, s, rfl, by rw [hsame, put_same hr], hs⟩
  cases hstate : r.state with
  | reserved =>
    obtain ⟨s₁, hx₁, hview₁, hs₁⟩ := h.markDispatched_eval hs hr hstate
    have hr₁ : view s₁ key = some { r with state := .dispatched } := by
      rw [hview₁, Ledger.put_apply, if_pos rfl]
    obtain ⟨s₂, hx₂, hview₂, hs₂⟩ := h.markUnknownEffect_eval hs₁ hr₁ rfl
    refine ⟨(.markedUnknownEffect, repairedDetail key .reserved), s₂, ?_, ?_, hs₂⟩
    · simp only [repairMarks, Call.bind_apply, hx₁, hx₂, Call.pure_apply]
    · rw [hview₂, hview₁, lost, hstate]
      exact Function.update_idem ..
  | dispatched =>
    obtain ⟨s₁, hx, hview, hs₁⟩ := h.markUnknownEffect_eval hs hr hstate
    refine ⟨(.markedUnknownEffect, repairedDetail key .dispatched), s₁, ?_, ?_, hs₁⟩
    · simp only [repairMarks, Call.bind_apply, hx, Call.pure_apply]
    · rw [hview, lost, hstate]
  | acknowledged => exact hskipped (by rw [lost, hstate]) _
  | succeeded => exact hskipped (by rw [lost, hstate]) _
  | unknownEffect => exact hskipped (by rw [lost, hstate]) _

/-- The repair of an orphan whose record is there. -/
theorem repairOrphanedKey_eval {s : σ} (hs : Inv s) {key : String} {r : DedupeRecord}
    (hr : view s key = some r) (v : ConsistencyViolation) :
    ∃ done s', repairOrphanedKey O.port key v s = .ok done s' ∧
      view s' = lose (view s) key ∧ Inv s' := by
  obtain ⟨s₁, hget, hview₁, hs₁⟩ := h.get_eval hs key
  obtain ⟨done, s₂, hmarks, hview₂, hs₂⟩ := h.repairMarks_eval hs₁ (hview₁ ▸ hr)
  refine ⟨done, s₂, ?_, ?_, hs₂⟩
  · simp only [repairOrphanedKey, Call.bind_apply, hget, hr, Call.tryCatch_apply, hmarks]
  · rw [hview₂, hview₁, lose, hr]

theorem repairViolation_eval (runId : String) (v : ConsistencyViolation) {s : σ} (hs : Inv s)
    (hpresent : ∀ key ∈ orphans [v], view s key ≠ none) :
    ∃ action s', repairViolation O.port runId v s = .ok action s' ∧
      action.idempotencyKey = v.idempotencyKey.getD "" ∧
      view s' = (orphans [v]).foldl lose (view s) ∧ Inv s' := by
  unfold repairViolation
  cases hkind : v.kind with
  | orphanedDedupeKey =>
    have horphans : orphans [v] = [v.idempotencyKey.getD ""] := by simp [orphans, hkind]
    rw [horphans] at hpresent ⊢
    obtain ⟨r, hr⟩ := Option.ne_none_iff_exists'.mp (hpresent _ List.mem_cons_self)
    obtain ⟨done, s', hrepair, hview, hs'⟩ := h.repairOrphanedKey_eval hs hr v
    refine ⟨⟨v.idempotencyKey.getD "", .orphanedDedupeKey, done.1, done.2⟩, s', ?_, rfl, hview, hs'⟩
    simp only [Call.map_apply, hrepair]
  | unknownEffectNoLogEvidence =>
    have horphans : orphans [v] = [] := by simp [orphans, hkind]
    exact ⟨_, s, rfl, rfl, by rw [horphans]; rfl, hs⟩
  | eventLogUnavailable =>
    have horphans : orphans [v] = [] := by simp [orphans, hkind]
    exact ⟨_, s, rfl, rfl, by rw [horphans]; rfl, hs⟩

/-- The repairs act on the orphans, one after the other. -/
theorem repairAll_eval (runId : String) (violations : List ConsistencyViolation) {s : σ}
    (hs : Inv s) (hpresent : ∀ key ∈ orphans violations, view s key ≠ none) :
    ∃ actions s', repairAll O.port runId violations s = .ok actions s' ∧
      actions.map ReconciliationAction.idempotencyKey =
        violations.map (fun v => v.idempotencyKey.getD "") ∧
      view s' = (orphans violations).foldl lose (view s) ∧ Inv s' := by
  induction violations generalizing s with
  | nil => exact ⟨[], s, rfl, rfl, rfl, hs⟩
  | cons v rest ih =>
    rw [orphans_cons] at hpresent ⊢
    obtain ⟨action, s₁, hv, hkey, hview₁, hs₁⟩ := h.repairViolation_eval runId v hs
      (fun key hk => hpresent key (List.mem_append_left _ hk))
    have hpresent₁ : ∀ key ∈ orphans rest, view s₁ key ≠ none := by
      intro key hk
      have hkept := hpresent key (List.mem_append_right _ hk)
      rw [hview₁, foldl_lose_apply]
      split
      · exact fun hnone => hkept (Option.map_eq_none_iff.mp hnone)
      · exact hkept
    obtain ⟨actions, s₂, hrest, hkeys, hview₂, hs₂⟩ := ih hs₁ hpresent₁
    refine ⟨action :: actions, s₂, ?_, ?_, ?_, hs₂⟩
    · simp only [repairAll, Call.bind_apply, hv, hrest, Call.pure_apply]
    · rw [List.map_cons, List.map_cons, hkey, hkeys]
    · rw [hview₂, hview₁, List.foldl_append]

/-- What a pass over the events of a run reports. -/
theorem verifyLoaded_eval (events : List RuntimeEvent) (runId : String) {s : σ} (hs : Inv s) :
    ∃ report s', verifyLoaded O runId (.ok events) s = .ok report s' ∧ report.runId = runId ∧
      report.violations = found (view s) events runId (O.collectDedupeKeys runId s) ∧
      view s' = view s ∧ Inv s' := by
  obtain ⟨s', hkeys, hview, hs'⟩ :=
    h.detectKeys_eval events runId (O.collectDedupeKeys runId s) hs
  refine ⟨{ runId := runId
            violations := found (view s) events runId (O.collectDedupeKeys runId s)
            eventsChecked := events.length
            dedupeKeysChecked := (O.collectDedupeKeys runId s).length }, s', ?_, rfl, rfl, hview, hs'⟩
  simp only [verifyLoaded, detectViolations, Call.bind_apply, Call.estate_get_apply, hkeys,
    Call.pure_apply]
  rfl

/-- Losing the orphans a pass finds loses the listed keys without an event. -/
theorem foldl_lose_found (events : List RuntimeEvent) (runId : String) {s : σ} (hs : Inv s) (key : String) :
    (orphans (found (view s) events runId (O.collectDedupeKeys runId s))).foldl lose (view s) key =
      if lists runId key = true ∧ key ∉ eventIdempotencyKeys events then (view s key).map lost
      else view s key := by
  rw [foldl_lose_apply]
  cases hrec : view s key with
  | none => simp
  | some r =>
    have hiff : key ∈ orphans (found (view s) events runId (O.collectDedupeKeys runId s)) ↔
        lists runId key = true ∧ key ∉ eventIdempotencyKeys events := by
      rw [mem_orphans_found_iff, h.collects s hs, hrec]
      simp
    simp only [hiff]

/-- **What a pass does.** It acts on the keys of the violations it finds. A listed key
without an event is lost if its record is open, and every other record stays. -/
theorem reconcileLoaded_spec (events : List RuntimeEvent) (runId : String) {s : σ} (hs : Inv s) :
    ∃ result s', reconcileLoaded O runId (.ok events) s = .ok result s' ∧ Inv s' ∧
      result.actions.map ReconciliationAction.idempotencyKey =
        (found (view s) events runId (O.collectDedupeKeys runId s)).map
          (fun v => v.idempotencyKey.getD "") ∧
      ∀ key, view s' key =
        if lists runId key = true ∧ key ∉ eventIdempotencyKeys events then (view s key).map lost
        else view s key := by
  obtain ⟨report, s₁, hverify, hrun, hfound, hview₁, hs₁⟩ := h.verifyLoaded_eval events runId hs
  obtain ⟨actions, s₂, hrepair, hkeys, hview₂, hs₂⟩ :=
    h.repairAll_eval report.runId report.violations hs₁ (by
      intro key hkey
      rw [hfound] at hkey
      rw [hview₁]
      exact (mem_orphans_found_iff.mp hkey).2.1)
  refine ⟨{ runId := report.runId
            actions := actions
            violationsFound := report.violations.length
            violationsRepaired := (actions.filter (fun a => a.actionTaken ≠ .skipped)).length },
    s₂, ?_, hs₂, ?_, ?_⟩
  · simp only [reconcileLoaded, Call.bind_apply, hverify, applyRepairs, hrepair, Call.pure_apply]
  · rw [← hfound]
    exact hkeys
  · intro key
    rw [hview₂, hview₁, hfound]
    exact h.foldl_lose_found events runId hs key

end OutboxStore.Sound
end AgentKernel.Reconcile
