import AgentKernel.Lib.Latest
import AgentKernel.Lib.Table
import AgentKernel.Workflow.Facts
import Mathlib.Data.String.Basic

/-! The SQLite log of turn intents.

A row is keyed by the reference of its intent, and a second intent under one reference
rewrites the row, the run it belongs to included. The reference a turn builds names its
action and its offset but not its run. So the latest intent of every run is the one its
last turn wrote exactly when no run's last turn shares action id and offset with a later
turn of another run (`latest_intents_iff`). -/
namespace AgentKernel.Persistence
open Lib Turns Workflow

/-! ### The table -/

structure IntentRow where
  id : Nat
  record : TurnIntentRecord
  deriving DecidableEq

def IntentRow.ref (row : IntentRow) : String := row.record.intentCommitRef

structure TurnIntentLog where
  rows : Table IntentRow String IntentRow.ref
  /-- The `AUTOINCREMENT` counter. -/
  lastId : Nat

namespace TurnIntentLog

def empty : TurnIntentLog := ⟨Table.empty, 0⟩

/-- `DO UPDATE SET`: every column but the id and the reference. -/
def overwrite (intent : TurnIntentRecord) (row : IntentRow) : IntentRow :=
  { row with record := { intent with intentCommitRef := row.record.intentCommitRef } }

theorem overwrite_ref (intent : TurnIntentRecord) (row : IntentRow) :
    (overwrite intent row).ref = row.ref := rfl

/-- The counter moves whether or not there is a conflict. -/
def writeIntent (log : TurnIntentLog) (intent : TurnIntentRecord) : TurnIntentLog :=
  match log.rows.insert ⟨log.lastId + 1, intent⟩ with
  | some rows => ⟨rows, log.lastId + 1⟩
  | none =>
    ⟨log.rows.update intent.intentCommitRef (overwrite intent) (overwrite_ref intent), log.lastId + 1⟩

/-- `ORDER BY written_at DESC, id DESC`: whether the first row stands before the second. -/
def before (a b : IntentRow) : Bool :=
  decide (b.record.writtenAt < a.record.writtenAt) ||
    (decide (b.record.writtenAt = a.record.writtenAt) && decide (b.id < a.id))

/-- `LIMIT 1`. -/
def first : List IntentRow → Option IntentRow
  | [] => none
  | row :: rest =>
    match first rest with
    | none => some row
    | some best => if before best row then some best else some row

def latestForRun (log : TurnIntentLog) (runId : String) : Option TurnIntentRecord :=
  (first (log.rows.rows.filter (fun row => row.record.runId = runId))).map IntentRow.record

/-! ### What a write changes -/

theorem select_writeIntent (log : TurnIntentLog) (intent : TurnIntentRecord) (ref : String) :
    ((log.writeIntent intent).rows.select ref).map IntentRow.record =
      if ref = intent.intentCommitRef then some intent
      else (log.rows.select ref).map IntentRow.record := by
  unfold writeIntent
  cases hinsert : log.rows.insert ⟨log.lastId + 1, intent⟩ with
  | some rows =>
    show (rows.select ref).map IntentRow.record = _
    rw [Table.select_insert hinsert]
    by_cases href : ref = intent.intentCommitRef
    · simp [href, IntentRow.ref]
    · simp [href, IntentRow.ref]
  | none =>
    show ((log.rows.update _ _ (overwrite_ref intent)).select ref).map IntentRow.record = _
    rw [Table.select_update]
    by_cases href : ref = intent.intentCommitRef
    · -- The insertion failed because the reference has a row.
      obtain ⟨row, hrow⟩ := Option.ne_none_iff_exists'.mp (fun hnone =>
        absurd hinsert (by
          obtain ⟨rows, hrows, -⟩ := Table.insert_of_select (t := log.rows)
            (r := ⟨log.lastId + 1, intent⟩) hnone
          rw [hrows]
          exact Option.some_ne_none _))
      have hfound := List.find?_some hrow
      have hkey : row.record.intentCommitRef = intent.intentCommitRef := of_decide_eq_true hfound
      have hrow' : log.rows.select intent.intentCommitRef = some row := hrow
      simp [href, hrow', overwrite, hkey]
    · simp [href]

theorem first_mem {rows : List IntentRow} {row : IntentRow} (h : first rows = some row) :
    row ∈ rows := by
  induction rows generalizing row with
  | nil => cases h
  | cons r rest ih =>
    rw [first] at h
    cases hrest : first rest with
    | none =>
      rw [hrest] at h
      cases h
      exact List.mem_cons_self
    | some best =>
      simp only [hrest] at h
      split at h
      · cases h
        exact List.mem_cons_of_mem r (ih hrest)
      · cases h
        exact List.mem_cons_self

theorem first_eq_none_iff {rows : List IntentRow} : first rows = none ↔ rows = [] := by
  cases rows with
  | nil => simp [first]
  | cons r rest =>
    rw [first]
    cases first rest with
    | none => simp
    | some best =>
      simp only
      split <;> simp

theorem writtenAt_le_of_before {a b : IntentRow} (h : before a b = true) :
    b.record.writtenAt ≤ a.record.writtenAt := by
  rw [before, Bool.or_eq_true, Bool.and_eq_true, decide_eq_true_eq, decide_eq_true_eq] at h
  rcases h with h | ⟨h, -⟩
  · exact le_of_lt h
  · exact le_of_eq h

theorem writtenAt_le_of_not_before {a b : IntentRow} (h : before a b = false) :
    a.record.writtenAt ≤ b.record.writtenAt := by
  rw [before, Bool.or_eq_false_iff, decide_eq_false_iff_not] at h
  exact not_lt.mp h.1

theorem first_latest {rows : List IntentRow} {row : IntentRow} (h : first rows = some row) :
    ∀ r ∈ rows, r.record.writtenAt ≤ row.record.writtenAt := by
  induction rows generalizing row with
  | nil => cases h
  | cons r rest ih =>
    intro r' hr'
    rw [first] at h
    cases hrest : first rest with
    | none =>
      rw [hrest] at h
      cases h
      rw [first_eq_none_iff] at hrest
      subst hrest
      rw [List.mem_singleton.mp hr']
    | some best =>
      have hbest := ih hrest
      simp only [hrest] at h
      split at h
      next hbefore =>
        cases h
        rcases List.mem_cons.mp hr' with rfl | hr'
        · exact writtenAt_le_of_before hbefore
        · exact hbest r' hr'
      next hbefore =>
        cases h
        have hle := writtenAt_le_of_not_before (Bool.eq_false_iff.mpr hbefore)
        rcases List.mem_cons.mp hr' with rfl | hr'
        · exact le_refl _
        · exact le_trans (hbest r' hr') hle

/-- The records a log holds. -/
def records (log : TurnIntentLog) : List TurnIntentRecord := log.rows.rows.map IntentRow.record

theorem latestForRun_picks (log : TurnIntentLog) :
    Picks TurnIntentRecord.runId TurnIntentRecord.writtenAt log.records log.latestForRun where
  latest := by
    intro runId w h
    obtain ⟨row, hrow, rfl⟩ := Option.map_eq_some_iff.mp h
    obtain ⟨hmem, hrun⟩ := List.mem_filter.mp (first_mem hrow)
    refine ⟨List.mem_map_of_mem hmem, by simpa using hrun, fun u hu hown => ?_⟩
    obtain ⟨r, hr, rfl⟩ := List.mem_map.mp hu
    exact first_latest hrow r (List.mem_filter.mpr ⟨hr, by simpa using hown⟩)
  complete := by
    intro runId h u hu hown
    obtain ⟨r, hr, rfl⟩ := List.mem_map.mp hu
    have hnone := first_eq_none_iff.mp (Option.map_eq_none_iff.mp h)
    exact absurd (by simpa using hown) (List.filter_eq_nil_iff.mp hnone r hr)

/-! ### A sequence of writes -/

def written (intents : List TurnIntentRecord) : TurnIntentLog := run writeIntent empty intents

theorem written_append (intents : List TurnIntentRecord) (intent : TurnIntentRecord) :
    written (intents ++ [intent]) = (written intents).writeIntent intent :=
  run_append writeIntent empty intents [intent]

/-- The row of a reference is the last intent written under it. -/
theorem select_written (intents : List TurnIntentRecord) (ref : String) :
    ((written intents).rows.select ref).map IntentRow.record =
      lastOfKey TurnIntentRecord.intentCommitRef intents ref := by
  induction intents using List.reverseRecOn with
  | nil => rfl
  | append_singleton intents intent ih =>
    rw [written_append, select_writeIntent, ih]
    show _ = (intents ++ [intent]).findRev? _
    rw [findRev?_append_singleton]
    by_cases href : ref = intent.intentCommitRef
    · simp [href]
    · simp [href, Ne.symm href, lastOfKey]

theorem mem_records_iff (log : TurnIntentLog) (w : TurnIntentRecord) :
    w ∈ log.records ↔ (log.rows.select w.intentCommitRef).map IntentRow.record = some w := by
  rw [Option.map_eq_some_iff]
  constructor
  · intro h
    obtain ⟨row, hrow, rfl⟩ := List.mem_map.mp h
    exact ⟨row, log.rows.select_of_mem hrow, rfl⟩
  · intro ⟨row, hrow, hw⟩
    exact List.mem_map.mpr ⟨row, List.mem_of_find?_eq_some hrow, hw⟩

/-- **Every run reads its last intent exactly when none is written over by another run.** -/
theorem latestForRun_written_iff {intents : List TurnIntentRecord}
    (ordered : intents.Pairwise (fun a b => a.writtenAt < b.writtenAt)) :
    (∀ runId, (written intents).latestForRun runId =
        lastOfOwner TurnIntentRecord.runId intents runId) ↔
      Unshadowed TurnIntentRecord.intentCommitRef TurnIntentRecord.runId intents := by
  refine reads_last_iff ordered (fun w => ?_) (latestForRun_picks _)
  rw [mem_records_iff, select_written]

end TurnIntentLog

/-! ### Turns -/

/-- A turn whose intent is written: its result carries the reference the engine builds for
its input and its action. -/
structure IntentTurn where
  input : TurnInput
  action : Action
  result : TurnResult
  ref : String
  writtenAt : String
  referred : result.intentCommitRef = some ref
  identified : ∃ H hash, ref = (buildTurnIdentity H input action hash).intentCommitRef

namespace IntentTurn

/-- What `_append_turn_outcome_commit` writes. -/
def intent (t : IntentTurn) : TurnIntentRecord :=
  turnIntent t.input.runId t.ref t.result t.writtenAt

/-- Two turns write under one reference exactly when they share action id and offset. -/
theorem ref_eq_iff (t u : IntentTurn) :
    t.ref = u.ref ↔
      t.action.actionId = u.action.actionId ∧ t.input.throughOffset = u.input.throughOffset := by
  obtain ⟨H, hash, ht⟩ := t.identified
  obtain ⟨H', hash', hu⟩ := u.identified
  rw [ht, hu]
  show "intent:" ++ _ ++ ":" ++ toString _ = "intent:" ++ _ ++ ":" ++ toString _ ↔ _
  rw [Text.joined_eq_iff (Text.intText_no_colon _) (Text.intText_no_colon _), String.append_right_inj]
  exact and_congr_right (fun _ => ⟨Text.intText_injective, congrArg _⟩)

end IntentTurn

/-- Every turn that no later turn of its run follows shares action id and offset with no
later turn. -/
def KeptApart : List IntentTurn → Prop
  | [] => True
  | t :: rest =>
    ((∃ u ∈ rest, u.input.runId = t.input.runId) ∨
      ∀ u ∈ rest, ¬ (u.action.actionId = t.action.actionId ∧
        u.input.throughOffset = t.input.throughOffset)) ∧ KeptApart rest

theorem keptApart_iff (turns : List IntentTurn) :
    KeptApart turns ↔ Unshadowed TurnIntentRecord.intentCommitRef TurnIntentRecord.runId
      (turns.map IntentTurn.intent) := by
  induction turns with
  | nil => exact Iff.rfl
  | cons t rest ih =>
    rw [KeptApart, List.map_cons, Unshadowed, ih]
    refine and_congr_left (fun _ => or_congr ?_ ?_)
    · simp only [List.mem_map, exists_exists_and_eq_and]
      exact Iff.rfl
    · rw [List.forall_mem_map]
      exact forall₂_congr (fun u _ => not_congr (IntentTurn.ref_eq_iff u t).symm)

/-- The intent of the last turn of a run. -/
def lastIntent (turns : List IntentTurn) (runId : String) : Option TurnIntentRecord :=
  (turns.findRev? (fun t => t.input.runId = runId)).map IntentTurn.intent

theorem lastIntent_eq (turns : List IntentTurn) (runId : String) :
    lastIntent turns runId =
      lastOfOwner TurnIntentRecord.runId (turns.map IntentTurn.intent) runId := by
  rw [lastIntent, lastOfOwner, List.findRev?_eq_find?_reverse, List.findRev?_eq_find?_reverse,
    ← List.map_reverse, List.find?_map]
  rfl

/-- **The latest intent of every run is its last turn's exactly when no run's last turn
shares action id and offset with a later turn of another run.** -/
theorem latest_intents_iff (turns : List IntentTurn)
    (ordered : turns.Pairwise (fun a b => a.writtenAt < b.writtenAt)) :
    (∀ runId, (TurnIntentLog.written (turns.map IntentTurn.intent)).latestForRun runId =
      lastIntent turns runId) ↔ KeptApart turns := by
  rw [keptApart_iff, ← TurnIntentLog.latestForRun_written_iff (List.pairwise_map.mpr ordered)]
  exact forall_congr' (fun runId => by rw [lastIntent_eq])

namespace Sample

/-- A blocked turn on the first event of a run. -/
def intentTurn (runId actionId writtenAt : String) : IntentTurn where
  input := Turns.Sample.input runId
  action := Turns.Sample.action runId actionId
  result := blockedResult Turns.Sample.digest
    ⟨Turns.Sample.input runId, Turns.Sample.action runId actionId, Turns.Sample.snapshot⟩ none []
  ref := "intent:" ++ actionId ++ ":" ++ toString (1 : Int)
  writtenAt := writtenAt
  referred := rfl
  identified := ⟨Turns.Sample.digest, none, rfl⟩

end Sample

/-- Two runs whose turns differ in their actions. -/
theorem latest_intents_of_two_actions :
    (TurnIntentLog.written ([Sample.intentTurn "a" "act" "1",
        Sample.intentTurn "b" "other" "2"].map IntentTurn.intent)).latestForRun "a" =
      lastIntent [Sample.intentTurn "a" "act" "1", Sample.intentTurn "b" "other" "2"] "a" :=
  (latest_intents_iff _ (by decide)).mpr (by
    simp [KeptApart, Sample.intentTurn, Turns.Sample.action]) "a"

/-- The second run's turn takes the first run's intent away. -/
theorem intent_of_other_run_overwrites :
    [Sample.intentTurn "a" "act" "1", Sample.intentTurn "b" "act" "2"].Pairwise
        (fun t u => t.writtenAt < u.writtenAt) ∧
      (lastIntent [Sample.intentTurn "a" "act" "1", Sample.intentTurn "b" "act" "2"] "a").isSome ∧
      (TurnIntentLog.written ([Sample.intentTurn "a" "act" "1",
        Sample.intentTurn "b" "act" "2"].map IntentTurn.intent)).latestForRun "a" = none :=
  ⟨by decide, by decide +kernel, by decide +kernel⟩

end AgentKernel.Persistence
