import AgentKernel.Turns.Returned

/-! What a replay fidelity report is worth.

`ReplayFidelityVerifier.verify` runs a turn on two engines over one dedupe store and compares what it
captured after each. The hash it captures is the decision fingerprint, which is made of the turn's
input and action alone, and so it is the same on both engines whenever both built a snapshot.
`report_trustworthy_iff` says when a report that calls the replay idempotent is right about the
snapshots and the executors, and `distinct_snapshots_reported_idempotent` that it need not be. -/
namespace AgentKernel.Turns.Phases
open Lib Dedupe

/-! ### The verifier -/

structure TurnFidelityRecord where
  outcomeKind : TurnOutcomeKind
  snapshotHash : Option String
  dedupeState : Option DedupeState
  eventCount : Nat
  deriving DecidableEq, Repr

structure FidelityReport where
  runId : String
  original : TurnFidelityRecord
  replay : TurnFidelityRecord
  deriving DecidableEq, Repr

def FidelityReport.snapshotHashMatches (report : FidelityReport) : Bool :=
  report.original.snapshotHash = report.replay.snapshotHash

def FidelityReport.isIdempotent (report : FidelityReport) : Bool :=
  report.snapshotHashMatches && report.replay.eventCount = report.original.eventCount

/-- One of the two engines: how it is configured, what its ports answer, and what the event log
answers about a run after its turn. -/
structure Side where
  engine : TurnEngine
  ports : TurnPhase → Ports
  load : String → Except PyError (List RuntimeEvent)

/-- `len(events)`, or zero if the log raises. -/
def Side.eventCount (side : Side) (runId : String) : Nat :=
  match side.load runId with
  | .ok events => events.length
  | .error _ => 0

/-- What the verifier has of one turn, and what the turn asked of its ports. -/
structure Captured where
  record : TurnFidelityRecord
  calls : List PortCall

structure Verification where
  report : FidelityReport
  original : List PortCall
  replay : List PortCall

section
variable {σ : Type} (S : DedupeStorePort σ) (H : Digest)

/-- `_capture`; what the store raises is dropped. -/
def capture (side : Side) (input : TurnInput) (action : Action) (result : TurnResult) (store : σ) :
    TurnFidelityRecord :=
  let key := (buildTurnIdentity H input action none).dispatchDedupeKey
  { outcomeKind := result.outcomeKind
    snapshotHash := if result.outcomeKind ≠ .noop then some result.decisionFingerprint else none
    dedupeState := ((S.get key).outcome store).toOption.join.map (·.state)
    eventCount := side.eventCount input.runId }

/-- The turn on one engine, and what is captured after it. -/
def runAndCapture (side : Side) (input : TurnInput) (action : Action) : Call Interrupt σ Captured :=
  fun store =>
    match runTurn S H side.engine side.ports input (some action) { store := store } with
    | .ok (.returned result) w =>
      .ok ⟨capture S H side input action result w.store, w.calls⟩
        ((S.get (buildTurnIdentity H input action none).dispatchDedupeKey).after w.store)
    | .ok .exhausted w =>
      .error (.raised (.exception ⟨.runtimeError,
        "TurnEngine phases completed without setting ctx.result."⟩)) w.store
    | .error i w => .error i w.store

/-- `ReplayFidelityVerifier.verify`. -/
def verify (original replay : Side) (input : TurnInput) (action : Action) :
    Call Interrupt σ Verification := do
  let original ← runAndCapture S H original input action
  let replay ← runAndCapture S H replay input action
  pure ⟨⟨input.runId, original.record, replay.record⟩, original.calls, replay.calls⟩

end

/-- A report that calls the replay idempotent is right: both engines built snapshots of one hash or
neither built one, and the replay's executor was not invoked if the original's was. -/
def Verification.Trustworthy (v : Verification) : Prop :=
  v.report.isIdempotent = true → builtHash v.original = builtHash v.replay ∧
    ¬ (invoked v.original = true ∧ invoked v.replay = true)

/-! ### When a report is right -/

/-- The hash of the snapshot that an engine builds for the turn. -/
def Side.snapshotHash (side : Side) (input : TurnInput) (action : Action) : Option String :=
  (buildSnapshot side.engine (side.ports .snapshot) input action).toOption.map (·.snapshotHash)

section
variable {σ : Type} (S : DedupeStorePort σ) (H : Digest)

/-- What has to hold of the two engines, the log and the store. -/
def Agree (original replay : Side) (input : TurnInput) (action : Action) (store : σ) : Prop :=
  original.snapshotHash input action = replay.snapshotHash input action ∧
    ¬ (ComesToExecutor S H original.engine original.ports input action store ∧
      ComesToExecutor S H replay.engine replay.ports input action
        ((runAndCapture S H original input action).after store))

/-- The log shows as many events after the replay as before it, and both engines build a snapshot
or neither does. -/
def Indistinct (original replay : Side) (input : TurnInput) (action : Action) : Prop :=
  original.eventCount input.runId = replay.eventCount input.runId ∧
    (original.snapshotHash input action).isSome = (replay.snapshotHash input action).isSome

end

section
variable {σ : Type} {S : DedupeStorePort σ} {H : Digest} {side : Side} {input : TurnInput}
  {action : Action} {store store' : σ} {c : Captured}

/-- What is captured of one turn, in terms of its engine. -/
theorem runAndCapture_returned (h : runAndCapture S H side input action store = .ok c store') :
    c.record.snapshotHash = (side.snapshotHash input action).map (fun _ => fingerprint input action) ∧
      c.record.eventCount = side.eventCount input.runId ∧
      builtHash c.calls = side.snapshotHash input action ∧
      (invoked c.calls = true ↔ ComesToExecutor S H side.engine side.ports input action store) := by
  rw [runAndCapture] at h
  cases hrun : runTurn S H side.engine side.ports input (some action) { store := store } with
  | error i w =>
    rw [hrun] at h
    cases h
  | ok loopEnd w =>
    cases loopEnd with
    | exhausted =>
      rw [hrun] at h
      cases h
    | returned result =>
      rw [hrun] at h
      cases h
      rcases runTurn_returned hrun with ⟨hfailed, hnoop, hcalls⟩ | ⟨snapshot, hbuild, htaken⟩
      · have hhash : side.snapshotHash input action = none := by
          rw [Side.snapshotHash]
          cases hbuild : buildSnapshot side.engine (side.ports .snapshot) input action with
          | ok snapshot => exact absurd hbuild (hfailed snapshot)
          | error r => rfl
        rw [hhash, hcalls]
        refine ⟨?_, rfl, rfl, fun h => absurd h Bool.false_ne_true, ?_⟩
        · simp [capture, hnoop]
        · rintro ⟨snapshot, _, hbuild, -⟩
          exact absurd hbuild (hfailed snapshot)
      · have hhash : side.snapshotHash input action = some snapshot.snapshotHash := by
          rw [Side.snapshotHash, hbuild]
          rfl
        rw [hhash]
        refine ⟨?_, rfl, htaken.built, htaken.executes⟩
        simp [capture, htaken.decided.kind, htaken.decided.decisionFingerprint]

/-- **When a fidelity report can be trusted.** Two turns that returned are reported idempotent
exactly if the log shows as many events after both and both engines built a snapshot or neither
did. Such a report is right exactly if the two engines build snapshots of one hash and do not
both come to their executors. -/
theorem report_trustworthy_iff {original replay : Side} {v : Verification}
    (h : verify S H original replay input action store = .ok v store') :
    v.Trustworthy ↔
      (Indistinct original replay input action → Agree S H original replay input action store) := by
  rw [verify, Call.bind_apply] at h
  cases horiginal : runAndCapture S H original input action store with
  | error i s =>
    rw [horiginal] at h
    cases h
  | ok o s =>
    rw [horiginal] at h
    simp only [Call.bind_apply] at h
    cases hreplay : runAndCapture S H replay input action s with
    | error i s' =>
      rw [hreplay] at h
      cases h
    | ok r s' =>
      rw [hreplay] at h
      cases h
      obtain ⟨hhash, hcount, hbuilt, hinvoked⟩ := runAndCapture_returned horiginal
      obtain ⟨hhash', hcount', hbuilt', hinvoked'⟩ := runAndCapture_returned hreplay
      have hreported : (FidelityReport.mk input.runId o.record r.record).isIdempotent = true ↔
          Indistinct original replay input action := by
        simp only [FidelityReport.isIdempotent, FidelityReport.snapshotHashMatches, Bool.and_eq_true,
          decide_eq_true_eq, hhash, hhash', hcount, hcount', Indistinct]
        rw [and_comm, eq_comm (a := replay.eventCount input.runId)]
        refine and_congr_right (fun _ => ?_)
        cases original.snapshotHash input action <;> cases replay.snapshotHash input action <;> simp
      rw [Verification.Trustworthy, hreported, hbuilt, hbuilt', hinvoked, hinvoked', Agree,
        (Call.outcome_ok horiginal).2]

end

namespace Sample

/-- An engine whose snapshots have the given hash, on a log that stays empty. -/
def side (snapshotHash : String) : Side where
  engine := {}
  ports := fun _ =>
    { Turns.Sample.ports Turns.Sample.acknowledged with
      build := fun _ => .ok { Turns.Sample.snapshot with snapshotHash := snapshotHash } }
  load := fun _ => .ok []

/-- The turn on two engines that build snapshots of these hashes, over an empty store. -/
def verification (first second : String) : EStateM.Result Interrupt InMemoryDedupeStore Verification :=
  verify InMemoryDedupeStore.port Turns.Sample.digest (side first) (side second)
    (Turns.Sample.input "run") (Turns.Sample.action "run" "act") .empty

/-- Whether both turns returned and were reported idempotent, and on which snapshots. -/
def reported (first second : String) : Option (Bool × Option String × Option String) :=
  match verification first second with
  | .ok v _ => some (v.report.isIdempotent, builtHash v.original, builtHash v.replay)
  | .error _ _ => none

end Sample

theorem faithful_replay_report :
    ∃ v store, Sample.verification "snapshot-1" "snapshot-1" = .ok v store ∧
      (v.Trustworthy ↔ (Indistinct (Sample.side "snapshot-1") (Sample.side "snapshot-1")
        (Turns.Sample.input "run") (Turns.Sample.action "run" "act") →
        Agree InMemoryDedupeStore.port Turns.Sample.digest (Sample.side "snapshot-1")
          (Sample.side "snapshot-1") (Turns.Sample.input "run") (Turns.Sample.action "run" "act")
          .empty)) := by
  have hreported : Sample.reported "snapshot-1" "snapshot-1" =
      some (true, some "snapshot-1", some "snapshot-1") := by decide +kernel
  rw [Sample.reported] at hreported
  cases hrun : Sample.verification "snapshot-1" "snapshot-1" with
  | error i store =>
    rw [hrun] at hreported
    cases hreported
  | ok v store => exact ⟨v, store, rfl, report_trustworthy_iff hrun⟩

/-- The replay engine builds another snapshot, and the report calls the replay idempotent. -/
theorem distinct_snapshots_reported_idempotent :
    ∃ v store, Sample.verification "snapshot-1" "snapshot-2" = .ok v store ∧ ¬ v.Trustworthy := by
  have hreported : Sample.reported "snapshot-1" "snapshot-2" =
      some (true, some "snapshot-1", some "snapshot-2") := by decide +kernel
  rw [Sample.reported] at hreported
  cases hrun : Sample.verification "snapshot-1" "snapshot-2" with
  | error i store =>
    rw [hrun] at hreported
    cases hreported
  | ok v store =>
    rw [hrun] at hreported
    simp only [Option.some.injEq, Prod.mk.injEq] at hreported
    refine ⟨v, store, rfl, ?_⟩
    intro h
    have hhash := (h hreported.1).1
    rw [hreported.2.1, hreported.2.2] at hhash
    revert hhash
    decide

end AgentKernel.Turns.Phases
