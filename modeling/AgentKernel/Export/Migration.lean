import AgentKernel.Lib.Search
import AgentKernel.Workflow.Facts

/-! Migration of events between schema versions.

The registered steps are the edges of a graph of versions; an event is taken along a path
the search finds, and gets the version of each step. It arrives, at the target version,
exactly when the target can be reached from its version and the functions on the path
accept it (`migrate_ok_iff`, `migrate_version`). -/
namespace AgentKernel.Export
open Lib

abbrev Version : Type := String

structure EventSchemaMigrator where
  migrations : Dict (Version × Version) (RuntimeEvent → Except PyError RuntimeEvent)
  distinct : ∀ step ∈ migrations.keys, step.1 ≠ step.2

namespace EventSchemaMigrator

def empty : EventSchemaMigrator := ⟨Dict.empty, fun _ h => nomatch h⟩

def register (M : EventSchemaMigrator) (fromVersion toVersion : Version)
    (fn : RuntimeEvent → Except PyError RuntimeEvent) : Except PyError EventSchemaMigrator :=
  if h : fromVersion = toVersion then
    .error ⟨.valueError, "from_version and to_version must differ."⟩
  else
    .ok
      { migrations := M.migrations.set (fromVersion, toVersion) fn
        distinct := by
          intro step hstep
          rw [Dict.keys_set] at hstep
          split at hstep
          · exact M.distinct step hstep
          · rcases List.mem_append.mp hstep with hstep | hstep
            · exact M.distinct step hstep
            · rw [List.mem_singleton.mp hstep]
              exact h }

/-- `SchemaMigrationError`. -/
def noPath (fromVersion target : Version) : PyError :=
  ⟨.other "SchemaMigrationError",
    "No schema migration path from " ++ Text.quoted fromVersion ++ " to " ++ Text.quoted target ++ "."⟩

/-- `_resolve_path`. -/
def resolvePath (M : EventSchemaMigrator) (fromVersion target : Version) : List (Version × Version) :=
  Search.resolve M.migrations.keys fromVersion target

/-- One step; the event is stamped with the version the step leads to. -/
def takeStep (M : EventSchemaMigrator) (event : RuntimeEvent) (step : Version × Version) :
    Except PyError RuntimeEvent :=
  match M.migrations.get? step with
  | none => .error ⟨.other "KeyError", ""⟩
  | some fn => do
    let migrated ← fn event
    if migrated.schemaVersion ≠ step.2 then .ok { migrated with schemaVersion := step.2 }
    else .ok migrated

def takeSteps (M : EventSchemaMigrator) : List (Version × Version) → RuntimeEvent →
    Except PyError RuntimeEvent
  | [], event => .ok event
  | step :: rest, event => do
    let migrated ← M.takeStep event step
    M.takeSteps rest migrated

/-- `_attach_original_schema_version`. -/
def attachOriginalSchemaVersion (original migrated : RuntimeEvent) : RuntimeEvent :=
  if original.schemaVersion = migrated.schemaVersion then migrated
  else
    { migrated with payloadJson := some (Workflow.setDefault (migrated.payloadJson.getD [])
        "original_schema_version" (.str original.schemaVersion)) }

def migrate (M : EventSchemaMigrator) (event : RuntimeEvent) (target : Version) :
    Except PyError RuntimeEvent :=
  if event.schemaVersion = target then .ok event
  else
    let path := M.resolvePath event.schemaVersion target
    if path = [] then .error (noPath event.schemaVersion target)
    else do
      let migrated ← M.takeSteps path event
      .ok (attachOriginalSchemaVersion event migrated)

def migrateBatch (M : EventSchemaMigrator) (events : List RuntimeEvent) (target : Version) :
    Except PyError (List RuntimeEvent) :=
  events.mapM (fun event => M.migrate event target)

/-! ### Which events arrive -/

/-- The functions of the steps accept the event, one after the other. -/
def Accepts (M : EventSchemaMigrator) : List (Version × Version) → RuntimeEvent → Prop
  | [], _ => True
  | step :: rest, event =>
    ∃ fn migrated, M.migrations.get? step = some fn ∧ fn event = .ok migrated ∧
      M.Accepts rest { migrated with schemaVersion := step.2 }

/-- The event has the target version, or its version leads there by steps that accept it. -/
def Migratable (M : EventSchemaMigrator) (target : Version) (event : RuntimeEvent) : Prop :=
  event.schemaVersion = target ∨
    Search.Reachable M.migrations.keys event.schemaVersion target ∧
      M.Accepts (M.resolvePath event.schemaVersion target) event

variable {M : EventSchemaMigrator} {target : Version}

theorem takeStep_eq (event : RuntimeEvent) (step : Version × Version) :
    M.takeStep event step =
      match M.migrations.get? step with
      | none => .error ⟨.other "KeyError", ""⟩
      | some fn => (fn event).map (fun migrated => { migrated with schemaVersion := step.2 }) := by
  unfold takeStep
  cases M.migrations.get? step with
  | none => rfl
  | some fn =>
    simp only
    cases fn event with
    | error e => rfl
    | ok migrated =>
      show (if migrated.schemaVersion ≠ step.2 then _ else _) = _
      split
      · rfl
      next hsame => rw [Except.map, ← not_not.mp hsame]

theorem takeSteps_cons {step : Version × Version} {rest : List (Version × Version)}
    {event : RuntimeEvent} {fn : RuntimeEvent → Except PyError RuntimeEvent}
    (hfn : M.migrations.get? step = some fn) :
    M.takeSteps (step :: rest) event =
      (fn event).bind (fun migrated => M.takeSteps rest { migrated with schemaVersion := step.2 }) := by
  show (M.takeStep event step).bind _ = _
  rw [takeStep_eq, hfn]
  dsimp only
  cases fn event <;> rfl

/-- The steps succeed exactly when their functions accept the event. -/
theorem takeSteps_ok_iff {path : List (Version × Version)} {event : RuntimeEvent} :
    (∃ migrated, M.takeSteps path event = .ok migrated) ↔ M.Accepts path event := by
  induction path generalizing event with
  | nil => exact iff_of_true ⟨event, rfl⟩ trivial
  | cons step rest ih =>
    cases hfn : M.migrations.get? step with
    | none =>
      refine iff_of_false (fun ⟨migrated, h⟩ => ?_) (fun ⟨fn, _, hsome, _⟩ => ?_)
      · have hstep : M.takeSteps (step :: rest) event = .error ⟨.other "KeyError", ""⟩ := by
          show (M.takeStep event step).bind _ = _
          rw [takeStep_eq, hfn]
          rfl
        rw [hstep] at h
        cases h
      · rw [hfn] at hsome
        cases hsome
    | some fn =>
      rw [takeSteps_cons hfn]
      cases hcall : fn event with
      | error e =>
        refine iff_of_false (fun ⟨_, h⟩ => by cases h) (fun ⟨fn', _, hsome, hok, _⟩ => ?_)
        rw [hfn] at hsome
        cases hsome
        rw [hcall] at hok
        cases hok
      | ok migrated =>
        refine ih.trans ⟨fun h => ⟨fn, migrated, hfn, hcall, h⟩, ?_⟩
        intro ⟨fn', migrated', hsome, hok, h⟩
        rw [hfn] at hsome
        cases hsome
        rw [hcall] at hok
        cases hok
        exact h

/-- What has taken a path has the version the path leads to. -/
theorem takeSteps_version {edges : List (Version × Version)} {path : List (Version × Version)}
    {event migrated : RuntimeEvent}
    (hpath : Search.IsPath edges event.schemaVersion path target)
    (h : M.takeSteps path event = .ok migrated) : migrated.schemaVersion = target := by
  induction path generalizing event with
  | nil =>
    cases h
    exact hpath
  | cons step rest ih =>
    obtain ⟨fn, stepped, hfn, hcall, -⟩ := takeSteps_ok_iff.mp ⟨migrated, h⟩
    rw [takeSteps_cons hfn, hcall] at h
    have hrest : Search.IsPath edges
        ({ stepped with schemaVersion := step.2 } : RuntimeEvent).schemaVersion rest target := hpath.2.2
    exact ih hrest h

theorem attachOriginalSchemaVersion_version (original migrated : RuntimeEvent) :
    (attachOriginalSchemaVersion original migrated).schemaVersion = migrated.schemaVersion := by
  unfold attachOriginalSchemaVersion
  split <;> rfl

/-- **An event migrates exactly when its version leads to the target by steps that accept
it.** -/
theorem migrate_ok_iff (event : RuntimeEvent) :
    (∃ migrated, M.migrate event target = .ok migrated) ↔ M.Migratable target event := by
  unfold migrate Migratable
  by_cases hsame : event.schemaVersion = target
  · rw [if_pos hsame]
    exact iff_of_true ⟨event, rfl⟩ (.inl hsame)
  · rw [if_neg hsame]
    have hreach := Search.resolve_ne_nil_iff M.migrations.keys (Ne.symm hsame)
    by_cases hpath : M.resolvePath event.schemaVersion target = []
    · rw [if_pos hpath]
      refine iff_of_false (fun ⟨_, h⟩ => by cases h) (not_or.mpr ⟨hsame, fun h => ?_⟩)
      exact hreach.mpr h.1 hpath
    · rw [if_neg hpath]
      have hsteps : (∃ migrated, M.takeSteps (M.resolvePath event.schemaVersion target) event =
          .ok migrated) ↔ _ := takeSteps_ok_iff
      constructor
      · intro ⟨migrated, h⟩
        refine .inr ⟨hreach.mp hpath, hsteps.mp ?_⟩
        cases htaken : M.takeSteps (M.resolvePath event.schemaVersion target) event with
        | error e =>
          rw [htaken] at h
          cases h
        | ok taken => exact ⟨taken, rfl⟩
      · intro h
        obtain ⟨-, haccepts⟩ := h.resolve_left hsame
        obtain ⟨taken, htaken⟩ := hsteps.mpr haccepts
        exact ⟨attachOriginalSchemaVersion event taken, by rw [htaken]; rfl⟩

/-- **What has migrated has the target version.** -/
theorem migrate_version {event migrated : RuntimeEvent} (h : M.migrate event target = .ok migrated) :
    migrated.schemaVersion = target := by
  have hmigratable := (migrate_ok_iff event).mp ⟨migrated, h⟩
  unfold migrate at h
  by_cases hsame : event.schemaVersion = target
  · rw [if_pos hsame] at h
    cases h
    exact hsame
  · obtain ⟨hreach, haccepts⟩ := hmigratable.resolve_left hsame
    obtain ⟨taken, htaken⟩ := takeSteps_ok_iff.mpr haccepts
    have hpath : M.resolvePath event.schemaVersion target ≠ [] :=
      (Search.resolve_ne_nil_iff _ (Ne.symm hsame)).mpr hreach
    rw [if_neg hsame] at h
    dsimp only at h
    rw [if_neg hpath, htaken] at h
    cases h
    rw [attachOriginalSchemaVersion_version]
    exact takeSteps_version (Search.resolve_isPath hreach) htaken

theorem mapM_ok_iff {α β : Type} {f : α → Except PyError β} {l : List α} :
    (∃ bs, l.mapM f = .ok bs) ↔ ∀ a ∈ l, ∃ b, f a = .ok b := by
  induction l with
  | nil => simp [pure, Except.pure]
  | cons a rest ih =>
    rw [List.mapM_cons, List.forall_mem_cons, ← ih]
    cases f a with
    | error e => simp [bind, Except.bind]
    | ok b => cases rest.mapM f <;> simp [bind, Except.bind, pure, Except.pure]

theorem migrateBatch_ok_iff (events : List RuntimeEvent) :
    (∃ migrated, M.migrateBatch events target = .ok migrated) ↔
      ∀ event ∈ events, M.Migratable target event :=
  mapM_ok_iff.trans (forall₂_congr (fun event _ => migrate_ok_iff event))

end EventSchemaMigrator
end AgentKernel.Export
