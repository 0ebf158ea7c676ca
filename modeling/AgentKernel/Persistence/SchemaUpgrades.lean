import AgentKernel.Persistence.SchemaMigrations

/-! Upgrades of a schema, over every sequence of calls.

What a script has done by the time it fails, or the process stops, stays done, while the row that
would record the migration is never written. `schema_upgrades_atomic_iff` says that a database is
at a whole number of migrations after every call exactly if no call ends in a migration that has
made something durable by then; a script that opens a transaction itself and leaves it open never
does (`upgradesAtomically_of_wrapped`). -/
namespace AgentKernel.Persistence.Migrations
open Lib

section
variable {δ : Type}

/-! ### What is asked of it -/

/-- The versions a database has recorded. -/
def Database.versions (db : Database δ) : List Int := db.recorded.map Prod.fst

/-- All the steps, with nothing in their way. -/
def runAll : List (Step δ) → Call PyError (Conn (Database δ)) Unit
  | [] => pure ()
  | step :: rest => do
    step
    runAll rest

/-- A migration with nothing in its way: the database with all of its effect, and its row. -/
def Migration.effect (m : Migration δ) (db : Database δ) : Except PyError (Database δ) :=
  match runAll m.steps (Conn.idle db []) with
  | .ok _ c => .ok c.committed
  | .error e _ => .error e

/-- The effects of some migrations, one after the other. -/
def effects : List (Migration δ) → Database δ → Except PyError (Database δ)
  | [], db => .ok db
  | m :: rest, db => do effects rest (← m.effect db)

namespace SchemaMigrationManager
variable (M : SchemaMigrationManager δ)

/-- The database has the effects of the first few of the migrations that were pending at first, in
ascending order and each of them once, and nothing of the others. -/
def Whole (db₀ db : Database δ) : Prop :=
  ∃ done rest, M.pending db₀.versions = done ++ rest ∧ effects done db₀ = .ok db

/-- A call that nothing strikes brings the database to its last version. -/
def Reruns (db₀ db : Database δ) : Prop :=
  ∀ final, effects (M.pending db₀.versions) db₀ = .ok final →
    (∃ n, (M.applyAll .clean).outcome (Conn.idle db []) = .ok n) ∧ M.after db .clean = final

/-- **Atomic upgrades**: after every call of the sequence. -/
def UpgradesAtomically (db₀ : Database δ) (attempts : List Attempt) : Prop :=
  ∀ pre, pre <+: attempts →
    M.Whole db₀ (run M.after db₀ pre) ∧ M.Reruns db₀ (run M.after db₀ pre)

end SchemaMigrationManager

/-! ### Where a call ends -/

/-- How many steps are done when the one that is struck, or the first that raises, is to be taken;
none if all of them are. -/
def haltsAfter : Option Nat → List (Step δ) → Conn (Database δ) → Option Nat
  | _, [], _ => none
  | some 0, _ :: _, _ => some 0
  | strike, step :: rest, c =>
    match step c with
    | .ok _ c' => (haltsAfter (strike.map (· - 1)) rest c').map (· + 1)
    | .error _ _ => some 0

/-- What the first steps of a migration have made durable. -/
def Migration.durable (m : Migration δ) (k : Nat) (db : Database δ) : Database δ :=
  ((runAll (m.steps.take k)).after (Conn.idle db [])).committed

/-- The call does not end in a migration that has made something durable by then. -/
def EndsClean (a : Attempt) : List (Migration δ) → Database δ → Prop
  | [], _ => True
  | m :: rest, db =>
    match haltsAfter (a.strikeAt m) m.steps (Conn.idle db []), m.effect db with
    | some k, _ => m.durable k db = db
    | none, .ok db' => EndsClean a rest db'
    | none, .error _ => True

/-- The same of a call of `apply_all`. -/
def SchemaMigrationManager.EndsClean (M : SchemaMigrationManager δ) (db : Database δ) (a : Attempt) :
    Prop :=
  a.early = false → Migrations.EndsClean a (M.pending db.versions) db

/-! ### Steps -/

/-- A step that raises leaves the connection alone. -/
def FailsClean (step : Step δ) : Prop := ∀ c e c', step c = .error e c' → c' = c

theorem failsClean_statementCall (statement : Database δ → Except PyError (Unit × Database δ)) :
    FailsClean (Conn.statementCall statement) := by
  intro c e c' h
  rw [Conn.statementCall] at h
  cases hs : statement c.view with
  | ok r =>
    rw [hs] at h
    cases h
  | error e' =>
    rw [hs] at h
    cases h
    rfl

theorem failsClean_exec (s : Statement δ) : FailsClean s.exec := by
  cases s with
  | run f =>
    unfold Statement.exec
    exact failsClean_statementCall _
  | begin =>
    intro c e c' h
    simp only [Statement.exec, Conn.openCall] at h
    split at h
    · cases h
      rfl
    · cases h
  | commit =>
    intro c e c' h
    simp only [Statement.exec, Conn.commitCall] at h
    split at h
    · cases h
    · cases h
      rfl
  | rollback =>
    intro c e c' h
    simp only [Statement.exec, Conn.rollback] at h
    split at h
    · cases h
    · cases h
      rfl

theorem failsClean_commitPending : FailsClean (commitPending : Step δ) := by
  intro c e c' h
  simp only [commitPending] at h
  split at h <;> cases h

theorem failsClean_steps (m : Migration δ) : ∀ step ∈ m.steps, FailsClean step := by
  intro step hstep
  simp only [Migration.steps, Migration.script, List.mem_append, List.mem_cons, List.mem_map,
    List.not_mem_nil, or_false] at hstep
  rcases hstep with (rfl | ⟨s, -, rfl⟩) | rfl | rfl | rfl
  · exact failsClean_commitPending
  · exact failsClean_exec s
  · intro c e c' h
    cases h
  · exact failsClean_statementCall _
  · exact failsClean_commitPending

/-! ### Runs of steps -/

section
variable {strike : Option Nat} {step : Step δ} {steps rest : List (Step δ)}
  {c c' : Conn (Database δ)}

/-- One step that is not struck. -/
theorem runSteps_cons (halt : Halt) (h : strike ≠ some 0) :
    runSteps halt strike (step :: rest) c =
      match step c with
      | .ok _ c' => runSteps halt (strike.map (· - 1)) rest c'
      | .error e c' => .error (.raised e) c' := by
  match strike, h with
  | none, _ => rfl
  | some (k + 1), _ => rfl

theorem haltsAfter_cons (h : strike ≠ some 0) :
    haltsAfter strike (step :: rest) c =
      match step c with
      | .ok _ c' => (haltsAfter (strike.map (· - 1)) rest c').map (· + 1)
      | .error _ _ => some 0 := by
  match strike, h with
  | none, _ => rfl
  | some (k + 1), _ => rfl

theorem runAll_cons :
    runAll (step :: rest) c = match step c with
      | .ok _ c' => runAll rest c'
      | .error e c' => .error e c' := by
  rw [runAll, Call.bind_apply]
  cases step c <;> rfl

/-- Steps that are all done are done as if nothing could strike. -/
theorem runSteps_completes (halt : Halt) (h : haltsAfter strike steps c = none) :
    ∃ c', runSteps halt strike steps c = .ok () c' ∧ runAll steps c = .ok () c' := by
  induction steps generalizing strike c with
  | nil =>
    refine ⟨c, ?_, rfl⟩
    cases strike <;> rfl
  | cons step rest ih =>
    by_cases hstrike : strike = some 0
    · subst hstrike
      cases h
    · rw [haltsAfter_cons hstrike] at h
      rw [runSteps_cons halt hstrike, runAll_cons]
      cases hstep : step c with
      | error e c₁ =>
        rw [hstep] at h
        cases h
      | ok u c₁ =>
        rw [hstep] at h
        exact ih (Option.map_eq_none_iff.mp h)

/-- Steps that end early leave what the steps before have done. -/
theorem runSteps_halts (halt : Halt) (hclean : ∀ step ∈ steps, FailsClean step) {k : Nat}
    (h : haltsAfter strike steps c = some k) :
    k < steps.length ∧ ∃ e c', runSteps halt strike steps c = .error e c' ∧
      runAll (steps.take k) c = .ok () c' := by
  induction steps generalizing strike c k with
  | nil => cases strike <;> cases h
  | cons step rest ih =>
    by_cases hstrike : strike = some 0
    · subst hstrike
      cases h
      exact ⟨Nat.zero_lt_succ _, halt, c, rfl, rfl⟩
    · rw [haltsAfter_cons hstrike] at h
      rw [runSteps_cons halt hstrike]
      cases hstep : step c with
      | error e c₁ =>
        rw [hstep] at h
        cases h
        have hsame := hclean step List.mem_cons_self c e c₁ hstep
        subst hsame
        exact ⟨Nat.zero_lt_succ _, .raised e, c₁, rfl, rfl⟩
      | ok u c₁ =>
        rw [hstep] at h
        obtain ⟨j, hj, rfl⟩ := Option.map_eq_some_iff.mp h
        obtain ⟨hlt, e, c', hrun, htake⟩ :=
          ih (fun s hs => hclean s (List.mem_cons_of_mem _ hs)) hj
        refine ⟨Nat.succ_lt_succ hlt, e, c', hrun, ?_⟩
        rw [List.take_succ_cons, runAll_cons, hstep]
        exact htake

/-- Steps that nothing strikes and that do not raise are all done. -/
theorem haltsAfter_none (h : runAll steps c = .ok () c') : haltsAfter none steps c = none := by
  induction steps generalizing c with
  | nil => rfl
  | cons step rest ih =>
    rw [runAll_cons] at h
    rw [haltsAfter_cons (by simp)]
    cases hstep : step c with
    | error e c₁ =>
      rw [hstep] at h
      cases h
    | ok u c₁ =>
      rw [hstep] at h
      simp only [Option.map_none, ih h]

/-- **Run rule.** What every step keeps, all of them keep. -/
theorem runAll_keeps {P : Conn (Database δ) → Prop} (h : P c)
    (keeps : ∀ step ∈ steps, ∀ c c', P c → step c = .ok () c' → P c')
    (hrun : runAll steps c = .ok () c') : P c' := by
  induction steps generalizing c with
  | nil =>
    cases hrun
    exact h
  | cons step rest ih =>
    rw [runAll_cons] at hrun
    cases hstep : step c with
    | error e c₁ =>
      rw [hstep] at hrun
      cases hrun
    | ok u c₁ =>
      rw [hstep] at hrun
      exact ih (keeps step List.mem_cons_self c c₁ h hstep)
        (fun s hs => keeps s (List.mem_cons_of_mem _ hs)) hrun

theorem runAll_append (a b : List (Step δ)) :
    runAll (a ++ b) c = match runAll a c with
      | .ok _ c' => runAll b c'
      | .error e c' => .error e c' := by
  induction a generalizing c with
  | nil => rfl
  | cons step rest ih =>
    rw [List.cons_append, runAll_cons, runAll_cons]
    cases step c with
    | error e c₁ => rfl
    | ok u c₁ => exact ih

end

/-! ### What is recorded -/

/-- The rows of `schema_migrations` are the given ones, committed and in an open transaction. -/
structure Holds (rows : List (Int × String)) (c : Conn (Database δ)) : Prop where
  committed : c.committed.recorded = rows
  working : ∀ db ∈ c.working, db.recorded = rows
  faults : c.faults = []

variable {rows : List (Int × String)} {c c' : Conn (Database δ)}

theorem Holds.view (h : Holds rows c) : c.view.recorded = rows := by
  rw [Conn.view]
  cases hw : c.working with
  | none => exact h.committed
  | some db => exact h.working db hw

theorem holds_idle (db : Database δ) : Holds db.recorded (Conn.idle db []) := by
  refine ⟨rfl, ?_, rfl⟩
  intro db' hdb'
  cases hdb'

theorem Holds.commitPending (h : Holds rows c) (hrun : commitPending c = .ok () c') :
    Holds rows c' ∧ c'.working = none := by
  simp only [Migrations.commitPending] at hrun
  cases hw : c.working with
  | none =>
    rw [hw] at hrun
    cases hrun
    exact ⟨h, hw⟩
  | some db =>
    rw [hw] at hrun
    cases hrun
    refine ⟨⟨h.working db hw, ?_, h.faults⟩, rfl⟩
    intro db' hdb'
    cases hdb'

/-- A statement of a script does not touch the rows. -/
theorem Holds.exec (h : Holds rows c) {s : Statement δ} (hrun : s.exec c = .ok () c') : Holds rows c' := by
  cases s with
  | run f =>
    simp only [Statement.exec, Conn.statementCall] at hrun
    cases hf : f c.view.data with
    | error e =>
      rw [hf] at hrun
      cases hrun
    | ok d =>
      rw [hf] at hrun
      cases hrun
      rw [Conn.write]
      cases hw : c.working with
      | none =>
        refine ⟨h.view, ?_, h.faults⟩
        intro db' hdb'
        cases hdb'
      | some db =>
        refine ⟨h.committed, ?_, h.faults⟩
        intro db' hdb'
        cases hdb'
        exact h.view
  | begin =>
    simp only [Statement.exec, Conn.openCall] at hrun
    split at hrun
    · cases hrun
    · cases hrun
      refine ⟨h.committed, ?_, h.faults⟩
      intro db' hdb'
      cases hdb'
      exact h.committed
  | commit =>
    simp only [Statement.exec, Conn.commitCall] at hrun
    split at hrun
    · rename_i db hw
      cases hrun
      refine ⟨h.working db hw, ?_, h.faults⟩
      intro db' hdb'
      cases hdb'
    · cases hrun
  | rollback =>
    simp only [Statement.exec, Conn.rollback] at hrun
    split at hrun
    · cases hrun
      refine ⟨h.committed, ?_, h.faults⟩
      intro db' hdb'
      cases hdb'
    · cases hrun

theorem Holds.beginImplicit (h : Holds rows c) (hrun : beginImplicit c = .ok () c') : Holds rows c' := by
  cases hrun
  refine ⟨h.committed, ?_, h.faults⟩
  intro db' hdb'
  cases hdb'
  exact h.view

variable {m : Migration δ}

/-- What comes before the row is inserted. -/
def Migration.opening (m : Migration δ) : List (Step δ) := m.script ++ [beginImplicit]

theorem keeps_opening : ∀ step ∈ m.opening, ∀ c c', Holds rows c → step c = .ok () c' → Holds rows c' := by
  intro step hstep c c' h hrun
  simp only [Migration.opening, Migration.script, List.mem_append, List.mem_cons, List.mem_map,
    List.not_mem_nil, or_false] at hstep
  rcases hstep with (rfl | ⟨s, -, rfl⟩) | rfl
  · exact (h.commitPending hrun).1
  · exact h.exec hrun
  · exact h.beginImplicit hrun

theorem steps_eq (m : Migration δ) : m.steps = m.opening ++ [insertRow m, commitPending] := by
  simp [Migration.steps, Migration.opening]

/-- The insertion of the row, from a connection that has a transaction open. -/
theorem insertRow_apply (h : Holds rows c) {db : Database δ} (hw : c.working = some db) :
    insertRow m c =
      if m.version ∈ rows.map Prod.fst then
        .error ⟨.integrityError, "UNIQUE constraint failed: schema_migrations.version"⟩ c
      else .ok () { c with working := some { db with recorded := rows ++ [m.row] } } := by
  have hview : c.view = db := by rw [Conn.view, hw, Option.getD_some]
  have hrows : db.recorded = rows := h.working db hw
  rw [insertRow, Conn.statementCall, hview, hrows]
  by_cases hversion : m.version ∈ rows.map Prod.fst
  · rw [if_pos hversion, if_pos hversion]
  · rw [if_neg hversion, if_neg hversion]
    simp only [Conn.write, hw]

theorem opening_open (hrun : runAll m.opening c = .ok () c') : ∃ db, c'.working = some db := by
  rw [Migration.opening, runAll_append] at hrun
  cases hscript : runAll m.script c with
  | error e c₁ =>
    rw [hscript] at hrun
    cases hrun
  | ok u c₁ =>
    rw [hscript] at hrun
    cases hrun
    exact ⟨_, rfl⟩

/-- **A migration with nothing in its way** was not recorded, and is recorded after it. -/
theorem effect_ok {db db' : Database δ} (h : m.effect db = .ok db') :
    db'.recorded = db.recorded ++ [m.row] ∧ m.version ∉ db.versions ∧
      runAll m.steps (Conn.idle db []) = .ok () (Conn.idle db' []) := by
  rw [Migration.effect, steps_eq, runAll_append] at h
  rw [steps_eq, runAll_append]
  cases hopening : runAll m.opening (Conn.idle db []) with
  | error e c₁ =>
    rw [hopening] at h
    cases h
  | ok u c₁ =>
    have hholds := runAll_keeps (holds_idle db) keeps_opening hopening
    obtain ⟨w, hw⟩ := opening_open hopening
    rw [hopening] at h
    simp only [runAll_cons, insertRow_apply hholds hw] at h ⊢
    by_cases hversion : m.version ∈ db.recorded.map Prod.fst
    · rw [if_pos hversion] at h
      cases h
    · rw [if_neg hversion] at h ⊢
      cases h
      refine ⟨rfl, hversion, ?_⟩
      simp only [commitPending, runAll, Conn.idle, hholds.faults]
      rfl

/-- A migration that ends early has recorded nothing. -/
theorem recorded_of_take {db : Database δ} {k : Nat} (hk : k < m.steps.length)
    (hrun : runAll (m.steps.take k) (Conn.idle db []) = .ok () c') :
    c'.committed.recorded = db.recorded := by
  have hlength : m.steps.length = m.opening.length + 2 := by
    rw [steps_eq, List.length_append]
    rfl
  by_cases hle : k ≤ m.opening.length
  · have htake : m.steps.take k = m.opening.take k := by
      rw [steps_eq, List.take_append_of_le_length hle]
    rw [htake] at hrun
    exact (runAll_keeps (holds_idle db)
      (fun step hstep => keeps_opening step (List.mem_of_mem_take hstep)) hrun).committed
  · have hk' : k = m.opening.length + 1 := by omega
    have htake : m.steps.take k = m.opening ++ [insertRow m] := by
      rw [steps_eq, hk', List.take_length_add_append]
      rfl
    rw [htake, runAll_append] at hrun
    cases hopening : runAll m.opening (Conn.idle db []) with
    | error e c₁ =>
      rw [hopening] at hrun
      cases hrun
    | ok u c₁ =>
      have hholds := runAll_keeps (holds_idle db) keeps_opening hopening
      obtain ⟨w, hw⟩ := opening_open hopening
      rw [hopening] at hrun
      simp only [runAll_cons, insertRow_apply hholds hw] at hrun
      by_cases hversion : m.version ∈ db.recorded.map Prod.fst
      · rw [if_pos hversion] at hrun
        cases hrun
      · rw [if_neg hversion] at hrun
        cases hrun
        exact hholds.committed

/-! ### One migration -/

section
variable {a : Attempt} {db db' : Database δ}

theorem applyMigration_completes (h : haltsAfter (a.strikeAt m) m.steps (Conn.idle db []) = none) :
    ∃ db', m.effect db = .ok db' ∧ applyMigration a m (Conn.idle db []) = .ok () (Conn.idle db' []) := by
  obtain ⟨c', hrun, hall⟩ := runSteps_completes a.halt h
  have heffect : m.effect db = .ok c'.committed := by rw [Migration.effect, hall]
  obtain ⟨-, -, hidle⟩ := effect_ok heffect
  rw [hall] at hidle
  have hsame : c' = Conn.idle c'.committed [] := by injection hidle
  refine ⟨c'.committed, heffect, ?_⟩
  rw [applyMigration, Call.tryCatch_apply, hrun, ← hsame]

theorem applyMigration_halts {k : Nat}
    (h : haltsAfter (a.strikeAt m) m.steps (Conn.idle db []) = some k) :
    ∃ e c', applyMigration a m (Conn.idle db []) = .error e c' ∧ c'.committed = m.durable k db ∧
      c'.committed.recorded = db.recorded := by
  obtain ⟨hk, e, c', hrun, htake⟩ := runSteps_halts a.halt (failsClean_steps m) h
  have hdurable : c'.committed = m.durable k db := by
    rw [Migration.durable, (Call.outcome_ok htake).2]
  have hrecorded := recorded_of_take hk htake
  rw [applyMigration, Call.tryCatch_apply, hrun]
  cases e with
  | raised e => exact ⟨.raised e, { c' with working := none }, rfl, hdurable, hrecorded⟩
  | stopped => exact ⟨.stopped, c', rfl, hdurable, hrecorded⟩

/-- With nothing in its way a migration that has an effect has it. -/
theorem applyMigration_clean (h : m.effect db = .ok db') :
    applyMigration .clean m (Conn.idle db []) = .ok () (Conn.idle db' []) := by
  obtain ⟨-, -, hall⟩ := effect_ok h
  obtain ⟨db₁, heffect, happly⟩ := applyMigration_completes (a := .clean) (haltsAfter_none hall)
  rw [h] at heffect
  cases heffect
  exact happly

/-! ### The loop -/

/-- What the loop leaves in the database. -/
def leftBy (a : Attempt) (ms : List (Migration δ)) (db : Database δ) : Database δ :=
  ((applyPending a ms).after (Conn.idle db [])).committed

/-- A migration that is not struck has its effect, and the loop goes on. -/
theorem leftBy_completes (h : haltsAfter (a.strikeAt m) m.steps (Conn.idle db []) = none)
    (rest : List (Migration δ)) :
    ∃ db', m.effect db = .ok db' ∧ leftBy a (m :: rest) db = leftBy a rest db' := by
  obtain ⟨db', heffect, happly⟩ := applyMigration_completes h
  refine ⟨db', heffect, ?_⟩
  rw [leftBy, leftBy, applyPending, Call.after, Call.after, Call.bind_apply, happly]

/-- One that is struck ends the loop with what it has made durable, and without its row. -/
theorem leftBy_halts {k : Nat} (h : haltsAfter (a.strikeAt m) m.steps (Conn.idle db []) = some k)
    (rest : List (Migration δ)) :
    leftBy a (m :: rest) db = m.durable k db ∧ (m.durable k db).recorded = db.recorded := by
  obtain ⟨e, c', happly, hdurable, hrecorded⟩ := applyMigration_halts h
  rw [hdurable] at hrecorded
  refine ⟨?_, hrecorded⟩
  rw [leftBy, applyPending, Call.after, Call.bind_apply, happly]
  exact hdurable

/-- Rows are only added. -/
theorem recorded_leftBy (a : Attempt) (ms : List (Migration δ)) (db : Database δ) :
    db.recorded <+: (leftBy a ms db).recorded := by
  induction ms generalizing db with
  | nil => exact List.prefix_rfl
  | cons m rest ih =>
    cases hhalts : haltsAfter (a.strikeAt m) m.steps (Conn.idle db []) with
    | none =>
      obtain ⟨db', heffect, hleft⟩ := leftBy_completes hhalts rest
      rw [hleft]
      refine List.IsPrefix.trans ?_ (ih db')
      rw [(effect_ok heffect).1]
      exact List.prefix_append _ _
    | some k =>
      obtain ⟨hleft, hrecorded⟩ := leftBy_halts hhalts rest
      rw [hleft, hrecorded]

theorem recorded_effects {ms : List (Migration δ)} (h : effects ms db = .ok db') :
    db'.recorded = db.recorded ++ ms.map Migration.row := by
  induction ms generalizing db with
  | nil =>
    cases h
    simp
  | cons m rest ih =>
    rw [effects] at h
    cases heffect : m.effect db with
    | error e =>
      rw [heffect] at h
      cases h
    | ok db₁ =>
      rw [heffect] at h
      rw [ih h, (effect_ok heffect).1, List.map_cons, List.append_assoc]
      rfl

theorem effects_append (done rest : List (Migration δ)) (db : Database δ) :
    effects (done ++ rest) db = (effects done db).bind (effects rest) := by
  induction done generalizing db with
  | nil => rfl
  | cons m done ih =>
    rw [List.cons_append, effects, effects]
    cases m.effect db with
    | error e => rfl
    | ok db' => exact ih db'

/-- The database has the effects of the first few of the migrations. -/
def Reached (ms : List (Migration δ)) (db final : Database δ) : Prop :=
  ∃ done rest, ms = done ++ rest ∧ effects done db = .ok final

/-- Without a new row nothing was done. -/
theorem reached_iff_of_same {ms : List (Migration δ)} (h : db'.recorded = db.recorded) :
    Reached ms db db' ↔ db' = db := by
  constructor
  · rintro ⟨done, rest, -, hdone⟩
    have hrows := recorded_effects hdone
    rw [h, List.self_eq_append_right, List.map_eq_nil_iff] at hrows
    subst hrows
    exact (Except.ok.inj hdone).symm
  · rintro rfl
    exact ⟨[], ms, rfl, rfl⟩

/-- Where the rows of the first migrations are there, it is the others that count. -/
theorem reached_append_iff {done rest : List (Migration δ)} {final : Database δ}
    (hdone : effects done db = .ok db') (hgrown : db'.recorded <+: final.recorded) :
    Reached (done ++ rest) db final ↔ Reached rest db' final := by
  constructor
  · rintro ⟨done', rest', hsplit, hdone'⟩
    have hlength := hgrown.length_le
    rw [recorded_effects hdone, recorded_effects hdone', List.length_append, List.length_append,
      List.length_map, List.length_map] at hlength
    have hall : done' <+: done ++ rest := ⟨rest', hsplit.symm⟩
    obtain ⟨more, rfl⟩ : done <+: done' :=
      List.prefix_of_prefix_length_le (List.prefix_append done rest) hall (by omega)
    rw [effects_append, hdone] at hdone'
    rw [List.append_assoc] at hsplit
    exact ⟨more, rest', List.append_cancel_left hsplit, hdone'⟩
  · rintro ⟨more, rest', rfl, hmore⟩
    refine ⟨done ++ more, rest', (List.append_assoc _ _ _).symm, ?_⟩
    rw [effects_append, hdone]
    exact hmore

/-- **The loop leaves a whole number of migrations** exactly if it does not end in one that has made
something durable. -/
theorem endsClean_iff (a : Attempt) (ms : List (Migration δ)) (db : Database δ) :
    EndsClean a ms db ↔ Reached ms db (leftBy a ms db) := by
  induction ms generalizing db with
  | nil => exact iff_of_true trivial ⟨[], [], rfl, rfl⟩
  | cons m rest ih =>
    cases hhalts : haltsAfter (a.strikeAt m) m.steps (Conn.idle db []) with
    | none =>
      obtain ⟨db', heffect, hleft⟩ := leftBy_completes hhalts rest
      have hone : effects [m] db = .ok db' := by
        rw [effects, heffect]
        rfl
      simp only [EndsClean, hhalts, heffect]
      rw [hleft, ih db', ← reached_append_iff hone (recorded_leftBy a rest db'), List.singleton_append]
    | some k =>
      obtain ⟨hleft, hrecorded⟩ := leftBy_halts hhalts rest
      simp only [EndsClean, hhalts]
      rw [hleft, reached_iff_of_same hrecorded]

/-- The loop with nothing in its way. -/
theorem applyPending_clean {ms : List (Migration δ)} (h : effects ms db = .ok db') :
    applyPending .clean ms (Conn.idle db []) = .ok () (Conn.idle db' []) := by
  induction ms generalizing db with
  | nil =>
    cases h
    rfl
  | cons m rest ih =>
    rw [effects] at h
    cases heffect : m.effect db with
    | error e =>
      rw [heffect] at h
      cases h
    | ok db₁ =>
      rw [heffect] at h
      rw [applyPending, Call.bind_apply, applyMigration_clean heffect]
      exact ih h

/-! ### A call of `apply_all` -/

namespace SchemaMigrationManager
variable {M : SchemaMigrationManager δ} {db₀ : Database δ}

theorem applyAll_apply (a : Attempt) (db : Database δ) :
    M.applyAll a (Conn.idle db []) =
      if a.early then .error a.halt (Conn.idle db [])
      else match applyPending a (M.pending db.versions) (Conn.idle db []) with
        | .ok _ c => .ok (M.pending db.versions).length c
        | .error e c => .error e c := by
  simp only [applyAll, ensureMigrationsTable, Call.bind_apply]
  by_cases hearly : a.early = true
  · rw [if_pos hearly, if_pos hearly]
  · have hcommit : commitPending (Conn.idle db []) = .ok () (Conn.idle db []) := rfl
    have hversions : appliedVersions (Conn.idle db []) = .ok db.versions (Conn.idle db []) := rfl
    rw [if_neg hearly, if_neg hearly]
    simp only [hcommit, hversions]
    cases applyPending a (M.pending db.versions) (Conn.idle db []) <;> rfl

theorem after_early (h : a.early = true) : M.after db a = db := by
  rw [after, Call.after, applyAll_apply, if_pos h]
  rfl

theorem after_late (h : a.early = false) : M.after db a = leftBy a (M.pending db.versions) db := by
  rw [after, Call.after, applyAll_apply, h, if_neg Bool.false_ne_true, leftBy, Call.after]
  cases applyPending a (M.pending db.versions) (Conn.idle db []) <;> rfl

theorem pending_append (applied more : List Int) :
    M.pending (applied ++ more) = (M.pending applied).filter (fun m => m.version ∉ more) := by
  rw [pending, pending, List.filter_filter]
  refine List.filter_congr ?_
  intro m hm
  simp only [List.mem_append, not_or, Bool.decide_and]
  exact Bool.and_comm _ _

/-- What is pending once the first few have had their effect. -/
theorem pending_of_effects {done rest : List (Migration δ)}
    (hsplit : M.pending db₀.versions = done ++ rest) (hdone : effects done db₀ = .ok db) :
    M.pending db.versions = rest := by
  have hversions : db.versions = db₀.versions ++ done.map Migration.version := by
    rw [Database.versions, Database.versions, recorded_effects hdone, List.map_append, List.map_map]
    rfl
  have hascending : (done ++ rest).Pairwise (fun m m' => m.version < m'.version) := by
    rw [← hsplit]
    exact M.ascending.filter _
  obtain ⟨-, -, hcross⟩ := List.pairwise_append.mp hascending
  rw [hversions, pending_append, hsplit, List.filter_append]
  have hnone : done.filter (fun m => m.version ∉ done.map Migration.version) = [] := by
    rw [List.filter_eq_nil_iff]
    intro m hm
    have hin : m.version ∈ done.map Migration.version := List.mem_map_of_mem hm
    simpa using hin
  have hall : rest.filter (fun m => m.version ∉ done.map Migration.version) = rest := by
    rw [List.filter_eq_self]
    intro m hm
    rw [decide_eq_true_iff]
    intro hin
    obtain ⟨m', hm', heq⟩ := List.mem_map.mp hin
    have hlt := hcross m' hm' m hm
    omega
  rw [hnone, hall, List.nil_append]

theorem whole_start : M.Whole db₀ db₀ := ⟨[], M.pending db₀.versions, rfl, rfl⟩

/-- **One call** leaves a whole number of migrations exactly if it ends clean. -/
theorem whole_after_iff (h : M.Whole db₀ db) : M.Whole db₀ (M.after db a) ↔ M.EndsClean db a := by
  cases hearly : a.early with
  | true =>
    rw [after_early hearly, EndsClean, hearly]
    refine iff_of_true h ?_
    intro hlate
    cases hlate
  | false =>
    obtain ⟨done, rest, hsplit, hdone⟩ := h
    have hpending := pending_of_effects hsplit hdone
    have hgrown := recorded_leftBy a rest db
    rw [after_late hearly, EndsClean, forall_prop_of_true hearly, hpending, endsClean_iff,
      ← reached_append_iff hdone hgrown, ← hsplit]
    rfl

/-- From a whole number of migrations, a call that nothing strikes does the others. -/
theorem Whole.reruns (h : M.Whole db₀ db) : M.Reruns db₀ db := by
  obtain ⟨done, rest, hsplit, hdone⟩ := h
  intro final hfinal
  rw [hsplit, effects_append, hdone] at hfinal
  have hrun := applyPending_clean hfinal
  rw [← pending_of_effects hsplit hdone] at hrun
  have hearly : Attempt.clean.early = false := rfl
  refine ⟨⟨(M.pending db.versions).length, ?_⟩, ?_⟩
  · rw [Call.outcome, applyAll_apply, hearly, if_neg Bool.false_ne_true, hrun]
  · rw [after_late hearly, leftBy, (Call.outcome_ok hrun).2]
    rfl

/-- **Schema upgrades are atomic** exactly along the calls that end clean. -/
theorem schema_upgrades_atomic_iff (M : SchemaMigrationManager δ) (db₀ : Database δ)
    (attempts : List Attempt) :
    M.UpgradesAtomically db₀ attempts ↔ Along M.after M.EndsClean db₀ attempts := by
  have hexact : (∀ pre, pre <+: attempts → M.Whole db₀ (run M.after db₀ pre)) ↔
      Along M.after M.EndsClean db₀ attempts :=
    forall_prefix_iff_along (I := M.Whole db₀) (fun _ h => h) (fun _ _ _ h => whole_after_iff h)
      (fun _ _ _ h hclean => (whole_after_iff h).mpr hclean) whole_start
      (Along.of_forall (fun _ _ => trivial) db₀ attempts)
  rw [← hexact]
  constructor
  · intro h pre hpre
    exact (h pre hpre).1
  · intro h pre hpre
    exact ⟨h pre hpre, (h pre hpre).reruns⟩

end SchemaMigrationManager

/-! ### Scripts that open a transaction -/

/-- The script opens a transaction and leaves its end to the module. -/
def Migration.Wrapped (m : Migration δ) : Prop :=
  ∃ body, m.sql = .begin :: body ∧ ∀ s ∈ body, ∃ f, s = .run f

/-- A transaction is open, and what was committed before it is as it was. -/
def Inside (db : Database δ) (c : Conn (Database δ)) : Prop :=
  c.committed = db ∧ c.working.isSome

theorem inside_statementCall {statement : Database δ → Except PyError (Unit × Database δ)}
    (h : Inside db c) (hrun : Conn.statementCall statement c = .ok () c') : Inside db c' := by
  rw [Conn.statementCall] at hrun
  cases hs : statement c.view with
  | error e =>
    rw [hs] at hrun
    cases hrun
  | ok r =>
    rw [hs] at hrun
    cases hrun
    obtain ⟨w, hw⟩ := Option.isSome_iff_exists.mp h.2
    simp only [Conn.write, hw]
    exact ⟨h.1, rfl⟩

/-- Up to its commit a wrapped migration makes nothing durable. -/
theorem Migration.Wrapped.committed (h : m.Wrapped) {k : Nat} (hk : k < m.steps.length)
    (hrun : runAll (m.steps.take k) (Conn.idle db []) = .ok () c') : c'.committed = db := by
  obtain ⟨body, hsql, hbody⟩ := h
  have hsteps : m.steps = commitPending :: Statement.exec .begin ::
      ((body.map Statement.exec ++ [beginImplicit, insertRow m]) ++ [commitPending]) := by
    simp [Migration.steps, Migration.script, hsql]
  rw [hsteps] at hrun hk
  match k with
  | 0 =>
    cases hrun
    rfl
  | 1 =>
    cases hrun
    rfl
  | k + 2 =>
    have hinner : k ≤ (body.map Statement.exec ++ [beginImplicit, insertRow m]).length := by
      simp only [List.length_cons, List.length_append, List.length_nil] at hk ⊢
      omega
    rw [List.take_succ_cons, List.take_succ_cons, List.take_append_of_le_length hinner] at hrun
    have hopen : Inside db { Conn.idle db [] with working := some db } := ⟨rfl, rfl⟩
    refine (runAll_keeps hopen ?_ hrun).1
    intro step hstep c c' hc hrun
    rcases List.mem_append.mp (List.mem_of_mem_take hstep) with hstep | hstep
    · obtain ⟨s, hs, rfl⟩ := List.mem_map.mp hstep
      obtain ⟨f, rfl⟩ := hbody s hs
      simp only [Statement.exec] at hrun
      exact inside_statementCall hc hrun
    · rcases List.mem_pair.mp hstep with rfl | rfl
      · cases hrun
        exact ⟨hc.1, rfl⟩
      · exact inside_statementCall hc hrun

theorem endsClean_of_wrapped (a : Attempt) {ms : List (Migration δ)} (h : ∀ m ∈ ms, m.Wrapped)
    (db : Database δ) : EndsClean a ms db := by
  induction ms generalizing db with
  | nil => exact trivial
  | cons m rest ih =>
    rw [EndsClean]
    cases hhalts : haltsAfter (a.strikeAt m) m.steps (Conn.idle db []) with
    | none =>
      obtain ⟨db', heffect, -⟩ := applyMigration_completes hhalts
      simp only [heffect]
      exact ih (fun m' hm' => h m' (List.mem_cons_of_mem m hm')) db'
    | some k =>
      obtain ⟨hk, e, c', -, htake⟩ := runSteps_halts a.halt (failsClean_steps m) hhalts
      show m.durable k db = db
      rw [Migration.durable, (Call.outcome_ok htake).2]
      exact (h m List.mem_cons_self).committed hk htake

/-- **With scripts that open a transaction** upgrades are atomic, wherever a call is struck. -/
theorem upgradesAtomically_of_wrapped {M : SchemaMigrationManager δ} (h : ∀ m ∈ M.migrations, m.Wrapped)
    (db₀ : Database δ) (attempts : List Attempt) : M.UpgradesAtomically db₀ attempts := by
  intro pre hpre
  have hwhole : M.Whole db₀ (run M.after db₀ pre) := by
    refine run_invariant (I := M.Whole db₀) ?_ SchemaMigrationManager.whole_start pre
    intro db a hdb
    refine (SchemaMigrationManager.whole_after_iff hdb).mpr ?_
    intro hlate
    exact endsClean_of_wrapped a (fun m hm => h m (List.mem_of_mem_filter hm)) db
  exact ⟨hwhole, hwhole.reruns⟩

end

end

/-! ### The migrations built in -/

def kernelManager : SchemaMigrationManager Schema := ⟨kernelMigrations, by decide⟩

def emptyDatabase : Database Schema := { data := {} }

/-- The process stops when the column is there and its row is not. -/
def stoppedAfterColumn : Attempt := { strike := some (2, 2) }

/-- Every later call runs into the column that is there already. -/
theorem rerun_after_column :
    (kernelManager.applyAll .clean).outcome
        (Conn.idle (kernelManager.after emptyDatabase stoppedAfterColumn) []) =
      .error (.raised (operational "duplicate column name: schema_version")) := by decide +kernel

/-- The database is left with half of the second migration, for good. -/
theorem column_without_row :
    SchemaMigrationManager.init kernelMigrations [] = .ok kernelManager ∧
      (kernelManager.after emptyDatabase stoppedAfterColumn).versions = [1] ∧
      ¬ kernelManager.UpgradesAtomically emptyDatabase [stoppedAfterColumn] := by
  refine ⟨rfl, by decide +kernel, ?_⟩
  intro h
  obtain ⟨-, hreruns⟩ := h [stoppedAfterColumn] List.prefix_rfl
  cases hfinal : effects (kernelManager.pending emptyDatabase.versions) emptyDatabase with
  | error e =>
    have hok : (effects (kernelManager.pending emptyDatabase.versions) emptyDatabase).isOk = true := by
      decide +kernel
    rw [hfinal] at hok
    cases hok
  | ok final =>
    obtain ⟨⟨n, hn⟩, -⟩ := hreruns final hfinal
    simp only [run, rerun_after_column] at hn
    cases hn

end AgentKernel.Persistence.Migrations
