import AgentKernel.Export.Migration
import AgentKernel.Lib.Run

/-! The exporting event log.

`EventExportingEventLog` appends to an inner log and then hands the commit to a background
task. What the export port does, it does in the task, where nobody waits for it. But the
events are migrated for the export in between, in the caller's own call. So callers see
the inner log and nothing else exactly as long as every commit that was appended can be
migrated (`export_transparent_iff`); what becomes durable is the inner log's in any case
(`inner_run`), and no task ends with what the port raised (`tasks_end_quietly`). -/
namespace AgentKernel.Export
open Lib Turns

/-- A log to be wrapped: it may answer and raise as it likes. -/
structure InnerLog (σ : Type) where
  appendActionCommit : ActionCommit → σ → Except Raised String × σ
  load : String → Int → σ → Except Raised (List RuntimeEvent) × σ

structure ExportConfig where
  eventSchemaMigrator : Option EventSchemaMigrator := none
  targetEventSchemaVersion : Option Version := none

structure EventExportingEventLog (σ : Type) where
  inner : σ
  /-- The commits whose export tasks have not ended. -/
  backgroundTasks : List ActionCommit := []
  /-- How the export tasks ended, which nobody asks. -/
  endedTasks : List (Except Raised Unit) := []

/-- `_maybe_migrate_commit`. -/
def maybeMigrateCommit (config : ExportConfig) (commit : ActionCommit) : Except PyError ActionCommit :=
  match config.eventSchemaMigrator, config.targetEventSchemaVersion with
  | some migrator, some target => do
    let migrated ← migrator.migrateBatch commit.events target
    .ok { commit with events := migrated }
  | _, _ => .ok commit

/-- `_safe_export`: how the task ends, given how the export does. -/
def safeExport : Awaited Unit → Except Raised Unit
  | .returned () | .timedOut | .raised (.exception _) => .ok ()
  | .raised (.exit name) => .error (.exit name)

section
variable {σ : Type} (L : InnerLog σ) (config : ExportConfig)

namespace EventExportingEventLog

def appendActionCommit (commit : ActionCommit) (s : EventExportingEventLog σ) :
    Except Raised String × EventExportingEventLog σ :=
  match L.appendActionCommit commit s.inner with
  | (.error r, inner) => (.error r, { s with inner := inner })
  | (.ok commitRef, inner) =>
    match maybeMigrateCommit config commit with
    | .error e => (.error (.exception e), { s with inner := inner })
    | .ok exported =>
      (.ok commitRef,
        { s with inner := inner, backgroundTasks := s.backgroundTasks ++ [exported] })

def load (runId : String) (afterOffset : Int) (s : EventExportingEventLog σ) :
    Except Raised (List RuntimeEvent) × EventExportingEventLog σ :=
  let (answer, inner) := L.load runId afterOffset s.inner
  (answer, { s with inner := inner })

end EventExportingEventLog

/-! ### Callers and tasks -/

/-- What happens to a log: a caller appends or loads, or an export task ends after the
port did what it does. A port that hangs does so until its deadline, or for good. -/
inductive ExportLabel where
  | append (commit : ActionCommit)
  | load (runId : String) (afterOffset : Int)
  | exported (i : Nat) (behaviour : Awaited Unit)

/-- What a caller gets. -/
inductive Answer where
  | commitRef (r : Except Raised String)
  | events (r : Except Raised (List RuntimeEvent))
  /-- Nobody called. -/
  | silent

/-- What the inner log makes of a label: no task is its business. -/
def InnerLog.step (s : σ) : ExportLabel → Answer × σ
  | .append commit =>
    let (answer, s) := L.appendActionCommit commit s
    (.commitRef answer, s)
  | .load runId afterOffset =>
    let (answer, s) := L.load runId afterOffset s
    (.events answer, s)
  | .exported _ _ => (.silent, s)

def EventExportingEventLog.step (s : EventExportingEventLog σ) :
    ExportLabel → Answer × EventExportingEventLog σ
  | .append commit =>
    let (answer, s) := s.appendActionCommit L config commit
    (.commitRef answer, s)
  | .load runId afterOffset =>
    let (answer, s) := s.load L runId afterOffset
    (.events answer, s)
  | .exported i behaviour =>
    (.silent,
      { s with
        backgroundTasks := s.backgroundTasks.eraseIdx i
        endedTasks := s.endedTasks ++ [safeExport behaviour] })

def InnerLog.next (s : σ) (l : ExportLabel) : σ := (L.step s l).2

def EventExportingEventLog.next (s : EventExportingEventLog σ) (l : ExportLabel) :
    EventExportingEventLog σ := (s.step L config l).2

theorem safeExport_exception (behaviour : Awaited Unit) (e : PyError) :
    safeExport behaviour ≠ .error (.exception e) := by
  rcases behaviour with _ | (_ | _) | _ <;> intro h <;> cases h

/-- An export task never ends with an `Exception`, whatever the port does. -/
theorem tasks_end_quietly (inner : σ) (labels : List ExportLabel) (e : PyError) :
    .error (.exception e) ∉
      (run (EventExportingEventLog.next L config) { inner := inner } labels).endedTasks := by
  let Quiet (s : EventExportingEventLog σ) : Prop := .error (.exception e) ∉ s.endedTasks
  have hempty : Quiet { inner := inner } := List.not_mem_nil
  refine run_invariant (I := Quiet) (fun s l hs => ?_) hempty labels
  cases l with
  | append commit =>
    show _ ∉ (s.appendActionCommit L config commit).2.endedTasks
    unfold EventExportingEventLog.appendActionCommit
    rcases L.appendActionCommit commit s.inner with ⟨_ | commitRef, inner⟩
    · exact hs
    · dsimp only
      cases maybeMigrateCommit config commit <;> exact hs
  | load runId afterOffset => exact hs
  | exported i behaviour =>
    intro hmem
    rcases List.mem_append.mp hmem with hearlier | hthis
    · exact hs hearlier
    · exact safeExport_exception behaviour e (List.mem_singleton.mp hthis).symm

/-- Every step does to the inner log what the inner log alone would do. -/
theorem inner_next (s : EventExportingEventLog σ) (l : ExportLabel) :
    (s.next L config l).inner = L.next s.inner l := by
  cases l with
  | append commit =>
    show (s.appendActionCommit L config commit).2.inner = (L.appendActionCommit commit s.inner).2
    unfold EventExportingEventLog.appendActionCommit
    rcases L.appendActionCommit commit s.inner with ⟨_ | commitRef, inner⟩
    · rfl
    · dsimp only
      cases maybeMigrateCommit config commit <;> rfl
  | load runId afterOffset => rfl
  | exported i behaviour => rfl

/-- **Durability is the inner log's.** -/
theorem inner_run (s : EventExportingEventLog σ) (labels : List ExportLabel) :
    (run (EventExportingEventLog.next L config) s labels).inner = run L.next s.inner labels := by
  induction labels generalizing s with
  | nil => rfl
  | cons l rest ih =>
    rw [run_cons, run_cons, ih, inner_next]

/-! ### Transparency -/

/-- A commit's events all migrate to the version the export asks for, if it asks for one. -/
def ExportConfig.Exportable (config : ExportConfig) (commit : ActionCommit) : Prop :=
  match config.eventSchemaMigrator, config.targetEventSchemaVersion with
  | some migrator, some target => ∀ event ∈ commit.events, migrator.Migratable target event
  | _, _ => True

theorem maybeMigrateCommit_ok_iff (commit : ActionCommit) :
    (∃ exported, maybeMigrateCommit config commit = .ok exported) ↔ config.Exportable commit := by
  unfold maybeMigrateCommit ExportConfig.Exportable
  cases config.eventSchemaMigrator with
  | none => exact iff_of_true ⟨commit, rfl⟩ trivial
  | some migrator =>
    cases config.targetEventSchemaVersion with
    | none => exact iff_of_true ⟨commit, rfl⟩ trivial
    | some target =>
      dsimp only
      rw [← EventSchemaMigrator.migrateBatch_ok_iff]
      cases migrator.migrateBatch commit.events target with
      | error e => exact iff_of_false (fun ⟨_, h⟩ => by cases h) (fun ⟨_, h⟩ => by cases h)
      | ok migrated => exact iff_of_true ⟨_, rfl⟩ ⟨_, rfl⟩

/-- The inner log raises, or the commit can be exported. -/
def Appendable (s : σ) : ExportLabel → Prop
  | .append commit =>
    (∃ r, (L.appendActionCommit commit s).1 = .error r) ∨ config.Exportable commit
  | _ => True

theorem step_answer_iff (s : EventExportingEventLog σ) (l : ExportLabel) :
    (s.step L config l).1 = (L.step s.inner l).1 ↔ Appendable L config s.inner l := by
  cases l with
  | append commit =>
    show Answer.commitRef (s.appendActionCommit L config commit).1 =
      .commitRef (L.appendActionCommit commit s.inner).1 ↔
      (∃ r, (L.appendActionCommit commit s.inner).1 = .error r) ∨ config.Exportable commit
    unfold EventExportingEventLog.appendActionCommit
    rw [Answer.commitRef.injEq, ← maybeMigrateCommit_ok_iff]
    rcases L.appendActionCommit commit s.inner with ⟨r | commitRef, inner⟩
    · exact iff_of_true rfl (.inl ⟨r, rfl⟩)
    · dsimp only
      cases maybeMigrateCommit config commit with
      | error e =>
        refine iff_of_false (fun h => by cases h) (not_or.mpr ⟨?_, ?_⟩)
        · exact fun ⟨_, h⟩ => by cases h
        · exact fun ⟨_, h⟩ => by cases h
      | ok exported => exact iff_of_true rfl (.inr ⟨exported, rfl⟩)
  | load runId afterOffset => exact iff_of_true rfl trivial
  | exported i behaviour => exact iff_of_true rfl trivial

/-- **Callers see the inner log and nothing else exactly when every commit that is appended
can be exported**, whatever the export port does. -/
theorem export_transparent_iff (s : EventExportingEventLog σ) (labels : List ExportLabel) :
    (∀ pre l, pre ++ [l] <+: labels →
        ((run (EventExportingEventLog.next L config) s pre).step L config l).1 =
          (L.step (run L.next s.inner pre) l).1) ↔
      Along L.next (Appendable L config) s.inner labels := by
  refine Iff.trans ?_ along_iff_forall_prefix.symm
  refine forall_congr' (fun pre => forall_congr' (fun l => imp_congr_right (fun _ => ?_)))
  rw [← inner_run L config s pre]
  exact step_answer_iff L config _ l

end

namespace Sample

/-- A log that takes every commit. -/
def innerLog : InnerLog (List ActionCommit) where
  appendActionCommit := fun commit log => (.ok ("commit-ref-" ++ commit.commitId), log ++ [commit])
  load := fun _ _ log => (.ok (log.flatMap ActionCommit.events), log)

/-- Version 2 is asked for and nothing leads there. -/
def noMigrations : ExportConfig :=
  { eventSchemaMigrator := some .empty, targetEventSchemaVersion := some "2" }

def commit : ActionCommit :=
  { runId := "run"
    commitId := "c"
    createdAt := ""
    events :=
      [{ runId := "run"
         eventId := "e"
         commitOffset := 1
         eventType := "run.ready"
         eventClass := .fact
         eventAuthority := .authoritativeFact
         orderingKey := "run"
         wakePolicy := .wakeActor
         createdAt := "" }] }

end Sample

/-- The commit is durable, and its caller gets an error. -/
theorem durable_append_raises :
    (Sample.innerLog.appendActionCommit Sample.commit []).1 = .ok "commit-ref-c" ∧
      (({ inner := [] } : EventExportingEventLog (List ActionCommit)).appendActionCommit Sample.innerLog
        Sample.noMigrations Sample.commit).2.inner.length = 1 ∧
      (({ inner := [] } : EventExportingEventLog (List ActionCommit)).appendActionCommit Sample.innerLog
        Sample.noMigrations Sample.commit).1 =
        .error (.exception (EventSchemaMigrator.noPath "1" "2")) :=
  ⟨by decide, by decide +kernel, by decide +kernel⟩

end AgentKernel.Export
