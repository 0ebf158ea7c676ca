import AgentKernel.Lib.Shortest
import AgentKernel.Export.Migration

/-! What a migration makes of an event.

With total functions, a migration is the composition of the functions of a shortest path, each
followed by a stamp with the version its edge leads to. A function may leave any version, so
the stamps are part of what the next function sees. -/
namespace AgentKernel.Export.EventSchemaMigrator
open Lib

/-- Every registered function accepts every event. -/
def Total (M : EventSchemaMigrator) : Prop :=
  ∀ step fn, M.migrations.get? step = some fn → ∀ event, ∃ migrated, fn event = .ok migrated

/-- The stamp of a step. -/
def stamp (step : Version × Version) (event : RuntimeEvent) : RuntimeEvent :=
  { event with schemaVersion := step.2 }

/-- The functions of the path, one after the other, with something done after each. -/
def Composes (M : EventSchemaMigrator) (after : Version × Version → RuntimeEvent → RuntimeEvent) :
    List (Version × Version) → RuntimeEvent → RuntimeEvent → Prop
  | [], event, composed => composed = event
  | step :: rest, event, composed =>
    ∃ fn migrated, M.migrations.get? step = some fn ∧ fn event = .ok migrated ∧
      M.Composes after rest (after step migrated) composed

/-- The event with the version it had once in its payload, if none is there. -/
def withOriginal (version : Version) (event : RuntimeEvent) : RuntimeEvent :=
  { event with
    payloadJson := some (Workflow.setDefault (event.payloadJson.getD []) "original_schema_version"
      (.str version)) }

variable {M : EventSchemaMigrator} {target : Version}

theorem Total.accepts (h : M.Total) {u v : Version} {path : List (Version × Version)}
    (hpath : Search.IsPath M.migrations.keys u path v) (event : RuntimeEvent) : M.Accepts path event := by
  induction path generalizing u event with
  | nil => trivial
  | cons step rest ih =>
    obtain ⟨hedge, rfl, hrest⟩ := hpath
    obtain ⟨fn, hfn⟩ := (M.migrations.mem_keys_iff step).mp hedge
    obtain ⟨migrated, hcall⟩ := h step fn hfn event
    exact ⟨fn, migrated, hfn, hcall, ih hrest _⟩

/-- Taking the steps is composing their functions and stamps. -/
theorem composes_of_takeSteps {path : List (Version × Version)} {event migrated : RuntimeEvent}
    (h : M.takeSteps path event = .ok migrated) : M.Composes stamp path event migrated := by
  induction path generalizing event with
  | nil =>
    cases h
    rfl
  | cons step rest ih =>
    obtain ⟨fn, stepped, hfn, hcall, -⟩ := takeSteps_ok_iff.mp ⟨migrated, h⟩
    rw [takeSteps_cons hfn, hcall] at h
    exact ⟨fn, stepped, hfn, hcall, ih h⟩

/-- The note is what the last step left there, or else the version. -/
theorem withOriginal_noted (version : Version) (event : RuntimeEvent) :
    ((withOriginal version event).payloadJson.getD []).lookup "original_schema_version" =
      some (((event.payloadJson.getD []).lookup "original_schema_version").getD (.str version)) := by
  simp only [withOriginal, Option.getD_some, Workflow.setDefault]
  cases hnoted : (event.payloadJson.getD []).lookup "original_schema_version" with
  | some noted => simp [hnoted]
  | none => simp [List.lookup_append, hnoted]

/-- **What a migration does.** It ends. With total functions it fails exactly when the target is
not the event's version and cannot be reached. Otherwise it gives the event itself or composes
the functions and stamps of a shortest path, at the target version and with the original
version noted. -/
theorem migrate_spec (hM : M.Total) (event : RuntimeEvent) (target : Version) :
    Search.Halted target (Search.rounds M.migrations.keys target (M.migrations.keys.length + 1)
        (Search.start event.schemaVersion)) ∧
      (M.migrate event target = .error (noPath event.schemaVersion target) ↔
        event.schemaVersion ≠ target ∧
          ¬ Search.Reachable M.migrations.keys event.schemaVersion target) ∧
      (∀ e, M.migrate event target = .error e → e = noPath event.schemaVersion target) ∧
      (event.schemaVersion = target → M.migrate event target = .ok event) ∧
      (event.schemaVersion ≠ target →
        Search.Reachable M.migrations.keys event.schemaVersion target →
        ∃ path composed, Search.IsShortest M.migrations.keys event.schemaVersion path target ∧
          M.Composes stamp path event composed ∧ composed.schemaVersion = target ∧
          M.migrate event target = .ok (withOriginal event.schemaVersion composed) ∧
          ((withOriginal event.schemaVersion composed).payloadJson.getD []).lookup
              "original_schema_version" =
            some (((composed.payloadJson.getD []).lookup "original_schema_version").getD
              (.str event.schemaVersion))) := by
  have harrives : event.schemaVersion ≠ target →
      Search.Reachable M.migrations.keys event.schemaVersion target →
      ∃ path composed, Search.IsShortest M.migrations.keys event.schemaVersion path target ∧
        M.Composes stamp path event composed ∧ composed.schemaVersion = target ∧
        M.migrate event target = .ok (withOriginal event.schemaVersion composed) := by
    intro hne hreach
    have hshortest := Search.resolve_isShortest hreach
    have hpath : M.resolvePath event.schemaVersion target ≠ [] :=
      (Search.resolve_ne_nil_iff _ (Ne.symm hne)).mpr hreach
    obtain ⟨composed, htaken⟩ := takeSteps_ok_iff.mpr (hM.accepts hshortest.1 event)
    have hversion := takeSteps_version hshortest.1 htaken
    refine ⟨_, composed, hshortest, composes_of_takeSteps htaken, hversion, ?_⟩
    have hattached : attachOriginalSchemaVersion event composed = withOriginal event.schemaVersion composed := by
      unfold attachOriginalSchemaVersion
      rw [if_neg (by rw [hversion]; exact hne)]
      rfl
    unfold migrate
    rw [if_neg hne]
    simp only
    rw [if_neg hpath, ← hattached]
    show (M.takeSteps (Search.resolve _ _ _) event).bind _ = _
    rw [htaken]
    rfl
  have hsame : event.schemaVersion = target → M.migrate event target = .ok event := by
    intro heq
    unfold migrate
    rw [if_pos heq]
  have hlost : event.schemaVersion ≠ target →
      ¬ Search.Reachable M.migrations.keys event.schemaVersion target →
      M.migrate event target = .error (noPath event.schemaVersion target) := by
    intro hne hreach
    have hpath : M.resolvePath event.schemaVersion target = [] :=
      not_not.mp (fun h => hreach ((Search.resolve_ne_nil_iff _ (Ne.symm hne)).mp h))
    unfold migrate
    rw [if_neg hne]
    simp only
    rw [if_pos hpath]
  -- Whatever is raised is raised for want of a path.
  have hraised : ∀ e, M.migrate event target = .error e →
      (event.schemaVersion ≠ target ∧ ¬ Search.Reachable M.migrations.keys event.schemaVersion target) ∧
        e = noPath event.schemaVersion target := by
    intro e herror
    by_cases hne : event.schemaVersion = target
    · rw [hsame hne] at herror
      cases herror
    · by_cases hreach : Search.Reachable M.migrations.keys event.schemaVersion target
      · obtain ⟨_, composed, _, _, _, hok⟩ := harrives hne hreach
        rw [hok] at herror
        cases herror
      · rw [hlost hne hreach] at herror
        exact ⟨⟨hne, hreach⟩, (Except.error.inj herror).symm⟩
  refine ⟨Search.rounds_halted _ target _ _ (Search.sound_start _) (Nat.le_refl _),
    ⟨fun h => (hraised _ h).1, fun h => hlost h.1 h.2⟩, fun e h => (hraised e h).2, hsame,
    fun hne hreach => ?_⟩
  obtain ⟨path, composed, hshortest, hcomposes, hversion, hok⟩ := harrives hne hreach
  exact ⟨path, composed, hshortest, hcomposes, hversion, hok, withOriginal_noted _ composed⟩

/-- One step, whose function leaves a version of its own. -/
def wayward : EventSchemaMigrator where
  migrations := Dict.empty.set ("1", "2") (fun event => .ok { event with schemaVersion := "draft" })
  distinct := by decide

def oldEvent : RuntimeEvent :=
  { runId := "run", eventId := "e", commitOffset := 1, eventType := "run.created", eventClass := .fact
    eventAuthority := .authoritativeFact, orderingKey := "run", wakePolicy := .wakeActor, createdAt := "" }

theorem wayward_get {step : Version × Version} {fn : RuntimeEvent → Except PyError RuntimeEvent}
    (h : wayward.migrations.get? step = some fn) :
    fn = fun event => .ok { event with schemaVersion := "draft" } := by
  have hget : (Dict.empty.set ("1", "2") _ : Dict (Version × Version) _).get? step = some fn := h
  rw [Dict.get?_set] at hget
  split at hget
  · exact (Option.some.inj hget).symm
  · cases hget

theorem wayward_total : wayward.Total := by
  intro step fn h event
  rw [wayward_get h]
  exact ⟨_, rfl⟩

/-- The wayward step migrates over a shortest path all the same, with its stamp. -/
theorem wayward_migrates :
    ∃ path composed, Search.IsShortest wayward.migrations.keys "1" path "2" ∧
      wayward.Composes stamp path oldEvent composed ∧ composed.schemaVersion = "2" ∧
      wayward.migrate oldEvent "2" = .ok (withOriginal "1" composed) := by
  obtain ⟨path, composed, hshortest, hcomposes, hversion, hok, _⟩ :=
    (migrate_spec wayward_total oldEvent "2").2.2.2.2 (by decide)
      (.single (by decide : ("1", "2") ∈ wayward.migrations.keys))
  exact ⟨path, composed, hshortest, hcomposes, hversion, hok⟩

/-- The result is not the composition of the functions alone, whatever the payload. -/
theorem wayward_not_composition :
    wayward.Total ∧ ¬ ∃ path composed payload,
      Search.IsShortest wayward.migrations.keys oldEvent.schemaVersion path "2" ∧
      wayward.Composes (fun _ event => event) path oldEvent composed ∧
      wayward.migrate oldEvent "2" = .ok { composed with payloadJson := payload } := by
  refine ⟨wayward_total, fun ⟨path, composed, payload, _, hcomposes, hmigrate⟩ => ?_⟩
  have hnever : ∀ (path : List (Version × Version)) (event composed : RuntimeEvent),
      event.schemaVersion ≠ "2" → wayward.Composes (fun _ event => event) path event composed →
      composed.schemaVersion ≠ "2" := by
    intro path
    induction path with
    | nil =>
      intro event composed hevent h
      rw [show composed = event from h]
      exact hevent
    | cons step rest ih =>
      intro event composed _ ⟨fn, migrated, hfn, hcall, hrest⟩
      rw [wayward_get hfn] at hcall
      cases hcall
      exact ih _ composed (show "draft" ≠ "2" by decide) hrest
  have hversion := migrate_version hmigrate
  exact hnever path oldEvent composed (by decide) hcomposes hversion

end AgentKernel.Export.EventSchemaMigrator
