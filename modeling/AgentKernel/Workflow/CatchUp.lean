import AgentKernel.Workflow.World

/-! How far a projection catches up.

The offset of a projection is that of the last event it replayed, and diagnostics are not
replayed. So `catch_up` comes to an offset when the event there is replayed, or the cached
projection was there before; `readiness`, when some event at the offset or after it is. A
projection that has nothing to replay at the end of a log never gets to the end
(`caught_up_iff`). A commit has no diagnostics of its own, so its call finds it. -/
namespace AgentKernel.Workflow
open Lib Events Projection

section
variable (config : ProjectionConfig)

/-- The migration of an event, if one is configured, succeeds and leaves its offset alone. -/
def KeepsOffsets (events : List RuntimeEvent) : Prop :=
  ∀ e ∈ events, ∃ migrated, maybeMigrateEvent config e = .ok migrated ∧
    migrated.commitOffset = e.commitOffset

/-- The event is one a projection replays. -/
def Replayed (e : RuntimeEvent) : Prop :=
  ∃ migrated, maybeMigrateEvent config e = .ok migrated ∧
    validateProjectionAuthorityInput migrated config.rejectDerivedDiagnosticAuthorityInput = true

/-- What a call with a cached projection replays of the events of its run. -/
def refreshed (through : Option Int) (cached : RunProjection) (events : List RuntimeEvent) :
    Except PyError RunProjection :=
  replayUnseen config through cached (events.filter (fun e => cached.projectedOffset < e.commitOffset))

/-- `catch_up` returns a projection at the offset or past it. -/
def CatchesUp (cached : RunProjection) (events : List RuntimeEvent) (n : Int) : Prop :=
  ∃ p, refreshed config (some n) cached events = .ok p ∧ n ≤ p.projectedOffset

/-- `readiness` returns true. -/
def Ready (cached : RunProjection) (events : List RuntimeEvent) (n : Int) : Prop :=
  ∃ p, refreshed config none cached events = .ok p ∧ n ≤ p.projectedOffset

end

variable {config : ProjectionConfig}

theorem keepsOffsets_of_no_migrator (h : config.eventSchemaMigrator = none) (events : List RuntimeEvent) :
    KeepsOffsets config events := by
  intro e _
  unfold maybeMigrateEvent
  rw [h]
  exact ⟨e, rfl, rfl⟩

/-- The loop ends at the last event it replays before it breaks off. -/
theorem replayUnseen_offset (through : Option Int) {events : List RuntimeEvent}
    (hsorted : events.Pairwise (fun a b => a.commitOffset < b.commitOffset))
    (hkeeps : KeepsOffsets config events) (cached : RunProjection)
    (hunseen : ∀ e ∈ events, cached.projectedOffset < e.commitOffset) :
    ∃ p, replayUnseen config through cached events = .ok p ∧
      ∀ n, n ≤ p.projectedOffset ↔ n ≤ cached.projectedOffset ∨
        ∃ e ∈ events, n ≤ e.commitOffset ∧ (∀ t ∈ through, e.commitOffset ≤ t) ∧ Replayed config e := by
  induction events generalizing cached with
  | nil => exact ⟨cached, rfl, fun n => by simp⟩
  | cons e rest ih =>
    obtain ⟨hafter, hrest⟩ := List.pairwise_cons.mp hsorted
    obtain ⟨migrated, hmigrated, hoffset⟩ := hkeeps e List.mem_cons_self
    have hkeepsRest : KeepsOffsets config rest := fun x hx => hkeeps x (List.mem_cons_of_mem e hx)
    unfold replayUnseen
    split
    next hbreak =>
      -- No later event is within the bound either.
      refine ⟨cached, rfl, fun n => ⟨.inl, fun h => h.resolve_right ?_⟩⟩
      rintro ⟨x, hx, -, hwithin, -⟩
      obtain ⟨t, ht, hpast⟩ : ∃ t ∈ through, t < e.commitOffset := by
        cases through with
        | none => simp at hbreak
        | some t => exact ⟨t, rfl, by simpa using hbreak⟩
      have hwithin := hwithin t ht
      rcases List.mem_cons.mp hx with rfl | hx
      · omega
      · have := hafter x hx
        omega
    next hgo =>
      have hwithin : ∀ t ∈ through, e.commitOffset ≤ t := by
        rintro t rfl
        simpa using hgo
      rw [hmigrated]
      simp only [bind, Except.bind]
      split
      next hreplay =>
        have hat : (applyProjectionEvent cached migrated).projectedOffset = e.commitOffset := hoffset
        obtain ⟨p, hp, hiff⟩ := ih hrest hkeepsRest (applyProjectionEvent cached migrated)
          (fun x hx => by rw [hat]; exact hafter x hx)
        refine ⟨p, hp, fun n => ?_⟩
        rw [hiff n, hat]
        have hnew := hunseen e List.mem_cons_self
        constructor
        · rintro (hn | ⟨x, hx, hn, hw, hr⟩)
          · exact .inr ⟨e, List.mem_cons_self, hn, hwithin, migrated, hmigrated, hreplay⟩
          · exact .inr ⟨x, List.mem_cons_of_mem e hx, hn, hw, hr⟩
        · rintro (hn | ⟨x, hx, hn, hw, hr⟩)
          · exact .inl (by omega)
          · rcases List.mem_cons.mp hx with rfl | hx
            · exact .inl hn
            · exact .inr ⟨x, hx, hn, hw, hr⟩
      next hskip =>
        obtain ⟨p, hp, hiff⟩ := ih hrest hkeepsRest cached
          (fun x hx => hunseen x (List.mem_cons_of_mem e hx))
        refine ⟨p, hp, fun n => ?_⟩
        rw [hiff n]
        refine or_congr_right ⟨?_, ?_⟩
        · rintro ⟨x, hx, h⟩
          exact ⟨x, List.mem_cons_of_mem e hx, h⟩
        · rintro ⟨x, hx, hn, hw, hr⟩
          rcases List.mem_cons.mp hx with rfl | hx
          · obtain ⟨migrated', hmigrated', hreplay⟩ := hr
            rw [hmigrated] at hmigrated'
            cases hmigrated'
            exact absurd hreplay hskip
          · exact ⟨x, hx, hn, hw, hr⟩

section
variable {events : List RuntimeEvent} (hindexed : Indexed RuntimeEvent.commitOffset events)
  (hkeeps : KeepsOffsets config events) (cached : RunProjection)
include hindexed hkeeps

/-- What a call makes of a cached projection, by the events it may replay. -/
theorem refreshed_offset (through : Option Int) :
    ∃ p, refreshed config through cached events = .ok p ∧
      ∀ n, n ≤ p.projectedOffset ↔ n ≤ cached.projectedOffset ∨
        ∃ e ∈ events, n ≤ e.commitOffset ∧ (∀ t ∈ through, e.commitOffset ≤ t) ∧ Replayed config e := by
  have hunseen : KeepsOffsets config (events.filter (fun e => cached.projectedOffset < e.commitOffset)) :=
    fun e he => hkeeps e (List.mem_of_mem_filter he)
  obtain ⟨p, hp, hiff⟩ := replayUnseen_offset through
    (hindexed.sorted.filter (fun e => cached.projectedOffset < e.commitOffset)) hunseen cached
    (fun e he => by simpa using (List.mem_filter.mp he).2)
  refine ⟨p, hp, fun n => ?_⟩
  rw [hiff n]
  constructor
  · rintro (hn | ⟨e, he, h⟩)
    · exact .inl hn
    · exact .inr ⟨e, List.mem_of_mem_filter he, h⟩
  · rintro (hn | ⟨e, he, hn, h⟩)
    · exact .inl hn
    · -- An event the projection has seen already says that it is past the offset.
      by_cases hseen : cached.projectedOffset < e.commitOffset
      · exact .inr ⟨e, List.mem_filter.mpr ⟨he, by simpa using hseen⟩, hn, h⟩
      · exact .inl (by omega)

theorem ready_iff (n : Int) :
    Ready config cached events n ↔
      n ≤ cached.projectedOffset ∨ ∃ e ∈ events, n ≤ e.commitOffset ∧ Replayed config e := by
  obtain ⟨p, hp, hiff⟩ := refreshed_offset hindexed hkeeps cached none
  have hready : Ready config cached events n ↔ n ≤ p.projectedOffset := by
    constructor
    · rintro ⟨p', hp', hn⟩
      rw [hp] at hp'
      cases hp'
      exact hn
    · exact fun hn => ⟨p, hp, hn⟩
  rw [hready, hiff n]
  simp

theorem catchesUp_iff (n : Int) :
    CatchesUp config cached events n ↔
      n ≤ cached.projectedOffset ∨ ∃ e ∈ events, e.commitOffset = n ∧ Replayed config e := by
  obtain ⟨p, hp, hiff⟩ := refreshed_offset hindexed hkeeps cached (some n)
  have hcatches : CatchesUp config cached events n ↔ n ≤ p.projectedOffset := by
    constructor
    · rintro ⟨p', hp', hn⟩
      rw [hp] at hp'
      cases hp'
      exact hn
    · exact fun hn => ⟨p, hp, hn⟩
  rw [hcatches, hiff n]
  refine or_congr_right ⟨?_, ?_⟩
  · rintro ⟨e, he, hn, hwithin, hr⟩
    exact ⟨e, he, Int.le_antisymm (hwithin n rfl) hn, hr⟩
  · rintro ⟨e, he, rfl, hr⟩
    exact ⟨e, he, Int.le_refl _, fun t ht => (Option.mem_some_iff.mp ht) ▸ Int.le_refl _, hr⟩

end

/-! ### The gate of `process_action_commit` -/

/-- The events of the commit are in the log as they are in the commit. -/
def Logged (j : Journal) (commit : ActionCommit) : Prop :=
  ∀ e ∈ commit.events, e ∈ j.eventsOf commit.runId

/-- **A logged commit is never taken for one that is not there.** Its last event is no
diagnostic, so a projection replays it whatever it has cached. -/
theorem logged_ready (sv : Services) (b : Behaviour) (turns : List Turns.Turn) {commit : ActionCommit}
    {offset : Int} (hpasses : assertNoDerivedDiagnosticAuthorityInput commit = .ok ())
    (hoffset : lastCommitOffset commit = .ok offset) (hlogged : Logged sv.journal commit) :
    ∃ sv', sv.perform b turns (.readiness commit.runId offset) = some (.ok true, sv') := by
  unfold lastCommitOffset at hoffset
  cases hlast : commit.events.getLast? with
  | none =>
    rw [hlast] at hoffset
    cases hoffset
  | some last =>
    rw [hlast] at hoffset
    cases hoffset
    have hmem : last ∈ commit.events := List.mem_of_getLast? hlast
    have hfact : validateProjectionAuthorityInput last true = true := by
      unfold assertNoDerivedDiagnosticAuthorityInput at hpasses
      split at hpasses
      · cases hpasses
      next hnone =>
        have := (not_exists.mp (fun h => hnone (List.any_eq_true.mpr h))) last
        simpa [validateProjectionAuthorityInput, hmem] using this
    have hkeeps : KeepsOffsets {} (sv.journal.eventsOf commit.runId) := keepsOffsets_of_no_migrator rfl _
    obtain ⟨p, hp, hn⟩ := (ready_iff (sv.journal.indexed commit.runId) hkeeps (sv.cached commit.runId)
      last.commitOffset).mpr
      (.inr ⟨last, hlogged last hmem, Int.le_refl _, last, rfl, hfact⟩)
    have hproject : sv.project commit.runId none =
        .ok (p, { sv with projections := sv.projections.set commit.runId p }) := by
      unfold Services.project
      rw [show replayUnseen {} none (sv.cached commit.runId) (sv.journal.load commit.runId
        (sv.cached commit.runId).projectedOffset) = .ok p from hp]
    refine ⟨{ sv with projections := sv.projections.set commit.runId p }, ?_⟩
    simp only [Services.perform, hproject]
    rw [decide_eq_true hn]

/-- **Exactly what is replayed is caught up with.** From any cached projection, `catch_up`
comes to an offset and `readiness` says so when the projection was there before or the event
there is one it replays; `readiness` alone asks for such an event there or later. A commit in
the log is never dropped for want of readiness. -/
theorem caught_up_iff (config : ProjectionConfig) (events : List RuntimeEvent)
    (hindexed : Indexed RuntimeEvent.commitOffset events) (hkeeps : KeepsOffsets config events)
    (cached : RunProjection) (n : Int) :
    ((CatchesUp config cached events n ∧ Ready config cached events n) ↔
        n ≤ cached.projectedOffset ∨ ∃ e ∈ events, e.commitOffset = n ∧ Replayed config e) ∧
      (Ready config cached events n ↔
        n ≤ cached.projectedOffset ∨ ∃ e ∈ events, n ≤ e.commitOffset ∧ Replayed config e) ∧
      ∀ (sv : Services) (b : Behaviour) (turns : List Turns.Turn) (commit : ActionCommit) (offset : Int),
        assertNoDerivedDiagnosticAuthorityInput commit = .ok () →
        lastCommitOffset commit = .ok offset → Logged sv.journal commit →
        ∃ sv', sv.perform b turns (.readiness commit.runId offset) = some (.ok true, sv') := by
  refine ⟨?_, ready_iff hindexed hkeeps cached n, fun sv b turns commit offset hpasses hoffset hlogged =>
    logged_ready sv b turns hpasses hoffset hlogged⟩
  rw [catchesUp_iff hindexed hkeeps, ready_iff hindexed hkeeps]
  refine and_iff_left_of_imp (fun h => h.imp_right ?_)
  rintro ⟨e, he, rfl, hr⟩
  exact ⟨e, he, Int.le_refl _, hr⟩

/-- A fact and a diagnostic after it. -/
def diagnosedLog : List RuntimeEvent :=
  [factEvent "run" "run.ready" 1 none,
   { factEvent "run" "recovery.plan_selected" 2 none with
     eventClass := .derived, eventAuthority := .derivedDiagnostic }]

/-- The fact is caught up with. -/
theorem diagnosed_fact_caught_up :
    CatchesUp {} (defaultProjection "run") diagnosedLog 1 ∧ Ready {} (defaultProjection "run") diagnosedLog 1 :=
  (caught_up_iff {} diagnosedLog ⟨by decide, by decide⟩ (keepsOffsets_of_no_migrator rfl _)
    (defaultProjection "run") 1).1.mpr
    (.inr ⟨factEvent "run" "run.ready" 1 none, List.mem_cons_self, rfl, _, rfl, rfl⟩)

/-- The end of the log is the diagnostic's offset, and the projection never gets there. -/
theorem diagnostic_never_caught_up :
    2 ≤ lastIndex RuntimeEvent.commitOffset diagnosedLog ∧
      ¬ (CatchesUp {} (defaultProjection "run") diagnosedLog 2 ∧
        Ready {} (defaultProjection "run") diagnosedLog 2) := by
  refine ⟨by decide, fun ⟨⟨p, hp, hn⟩, _⟩ => ?_⟩
  have heval : refreshed {} (some 2) (defaultProjection "run") diagnosedLog =
      .ok (applyProjectionEvent (defaultProjection "run") (factEvent "run" "run.ready" 1 none)) := rfl
  rw [heval] at hp
  cases hp
  revert hn
  decide

end AgentKernel.Workflow
