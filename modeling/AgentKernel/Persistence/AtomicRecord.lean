import AgentKernel.Persistence.Colocated

/-! Colocated dispatch records are all or nothing.

Each statement of `atomicDispatchRecord` gets its rule inside a transaction; the
transaction rule then says what a call leaves behind, wherever a statement or a
payload fails (`recorded_or_unchanged`). The other calls on the bundle keep the
connection idle (`next_idle`), so this holds after any calls. -/
namespace AgentKernel.Persistence
open Lib Dedupe

/-! ### Appending inside a transaction -/

theorem dumps_inTransaction (payload : Option Payload) :
    Conn.InTransaction (dumps payload) (fun d a d' => a = payload ∧ d' = d ∧
      ∀ items, payload = some items → (Value.dict items).serialisable = true) := by
  unfold dumps
  cases hwritten : serialized id payload with
  | ok text =>
    obtain ⟨hmap, hser⟩ := serialized_ok_iff.mp hwritten
    rw [Option.map_id, id_eq] at hmap
    exact (Conn.InTransaction.pure text).mono (fun _ _ _ h => ⟨h.1.trans hmap, h.2, hser⟩)
  | error e => exact Conn.InTransaction.throw e _

namespace SharedEventLog

/-- The rows of the events from an index on. -/
def rowsFrom (runId : String) (seq startOffset : Nat) (events : List RuntimeEvent) (idx : Nat) :
    List EventRow :=
  events.mapIdx (fun i event => BundleDb.eventRow runId seq startOffset (idx + i) event)

theorem rowsFrom_cons (runId : String) (seq startOffset : Nat) (event : RuntimeEvent)
    (rest : List RuntimeEvent) (idx : Nat) :
    rowsFrom runId seq startOffset (event :: rest) idx =
      BundleDb.eventRow runId seq startOffset idx event ::
        rowsFrom runId seq startOffset rest (idx + 1) := by
  simp only [rowsFrom, List.mapIdx_cons, Nat.add_zero]
  congr 2
  funext i event'
  congr 1
  omega

/-- What appending event rows leaves. -/
structure RowsAdded (runId : String) (seq startOffset : Nat) (events : List RuntimeEvent) (idx : Nat)
    (d d' : BundleDb) : Prop where
  serialisable : ∀ event ∈ events, Serialisable event
  events : d'.events.rows = d.events.rows ++ rowsFrom runId seq startOffset events idx
  commits : d'.commits = d.commits
  dedupe : d'.dedupe = d.dedupe

theorem insertEventRows_inTransaction (runId : String) (seq startOffset : Nat)
    (events : List RuntimeEvent) (idx : Nat) :
    Conn.InTransaction (insertEventRows runId seq startOffset events idx)
      (fun d _ d' => RowsAdded runId seq startOffset events idx d d') := by
  induction events generalizing idx with
  | nil =>
    refine (Conn.InTransaction.pure ()).mono ?_
    intro d _ d' hran
    obtain ⟨_, rfl⟩ := hran
    exact ⟨fun _ h => (nomatch h), (List.append_nil _).symm, rfl, rfl⟩
  | cons event rest ih =>
    refine (Conn.InTransaction.bind (dumps_inTransaction event.payloadJson) (fun payload =>
      Conn.InTransaction.bind (Conn.InTransaction.exec busy _) (fun _ => ih (idx + 1)))).mono ?_
    intro d _ d' hran
    obtain ⟨payload, _, ⟨rfl, rfl, hser⟩, _, d₂, hins, hrest⟩ := hran
    obtain ⟨hrows, hcommits, hdedupe⟩ := BundleDb.eventAdded_of_insert hins
    refine ⟨?_, ?_, hrest.commits.trans hcommits, hrest.dedupe.trans hdedupe⟩
    · intro e he
      rcases List.mem_cons.mp he with rfl | he
      · exact hser
      · exact hrest.serialisable e he
    · rw [hrest.events, hrows, rowsFrom_cons, List.append_assoc]
      rfl

/-- What appending a commit leaves. -/
structure Appended (commit : ActionCommit) (d : BundleDb) (seq : Nat) (d' : BundleDb) : Prop where
  serialisable : ∀ event ∈ commit.events, Serialisable event
  sequence : seq = d.lastSequence + 1
  commits : d'.commits.rows = d.commits.rows ++ [BundleDb.commitRow commit seq]
  events : d'.events.rows =
    d.events.rows ++ BundleDb.eventRows commit seq (d.maxOffset commit.runId + 1)
  dedupe : d'.dedupe = d.dedupe

theorem appended_of_added {commit : ActionCommit} {d d₁ d' : BundleDb} {seq : Nat}
    (hcommit : BundleDb.CommitAdded commit d seq d₁)
    (hrows : RowsAdded commit.runId seq (d.maxOffset commit.runId + 1) commit.events 0 d₁ d') :
    Appended commit d seq d' where
  serialisable := hrows.serialisable
  sequence := hcommit.sequence
  commits := by rw [hrows.commits, hcommit.commits]
  events := by
    rw [hrows.events, hcommit.events]
    simp only [rowsFrom, Nat.zero_add]
    rfl
  dedupe := hrows.dedupe.trans hcommit.dedupe

theorem appendRows_inTransaction (commit : ActionCommit) :
    Conn.InTransaction (appendRows commit) (Appended commit) := by
  refine (Conn.InTransaction.bind (Conn.InTransaction.bind (Conn.InTransaction.exec busy _)
    (fun _ => Conn.InTransaction.pure _)) (fun start =>
      Conn.InTransaction.bind (Conn.InTransaction.exec busy _) (fun seq =>
        Conn.InTransaction.bind (insertEventRows_inTransaction commit.runId seq start commit.events 0)
          (fun _ => Conn.InTransaction.pure seq)))).mono ?_
  intro d seq d' hran
  obtain ⟨start, d₁, ⟨last, _, hlast, rfl, rfl⟩, seq', d₂, hins, _, d₃, hrows, rfl, rfl⟩ := hran
  simp only [BundleDb.selectMaxOffset, Except.ok.injEq, Prod.mk.injEq] at hlast
  obtain ⟨rfl, rfl⟩ := hlast
  exact appended_of_added (BundleDb.commitAdded_of_insert hins) hrows

theorem appendBody_inTransaction (commit : ActionCommit) :
    Conn.InTransaction (appendBody commit) (fun d r d' =>
      ∃ seq, r = .commit (commitRef seq) ∧ Appended commit d seq d') := by
  refine (Conn.InTransaction.bind (appendRows_inTransaction commit)
    (fun _ => Conn.InTransaction.pure _)).mono ?_
  intro d _ d' hran
  obtain ⟨seq, _, happ, rfl, rfl⟩ := hran
  exact ⟨seq, rfl, happ⟩

/-- The method by itself commits all rows of its commit or none. -/
theorem appendActionCommit_atomic (commit : ActionCommit) :
    Conn.Atomic (appendActionCommit commit) (fun d ref d' =>
      ∃ seq, ref = commitRef seq ∧ Appended commit d seq d') := by
  unfold appendActionCommit
  split
  · intro c hc
    exact .inr ⟨emptyCommit, c, rfl, hc, rfl⟩
  · refine (Conn.guardedTransaction_atomic (appendBody_inTransaction commit) busy).mono ?_
    intro d ref d' hends
    rcases hends with ⟨seq, he, happ⟩ | ⟨⟨_, seq, he, _⟩, _⟩
    · cases he
      exact ⟨seq, rfl, happ⟩
    · cases he

end SharedEventLog

/-! ### The dispatch record -/

namespace ColocatedSQLiteBundle
open SharedEventLog

/-- What an accepted dispatch record adds: one reserved record under a free key,
one commit, and the commit's events at the next offsets of its run. -/
structure Recorded (commit : ActionCommit) (envelope : IdempotencyEnvelope) (d : BundleDb) (seq : Nat)
    (d' : BundleDb) : Prop where
  free : d.dedupe.select envelope.dispatchIdempotencyKey = none
  reserved : d'.dedupe.rows = d.dedupe.rows ++ [envelope.record .reserved envelope.peerOperationId]
  serialisable : ∀ event ∈ commit.events, Serialisable event
  sequence : seq = d.lastSequence + 1
  commits : d'.commits.rows = d.commits.rows ++ [BundleDb.commitRow commit seq]
  events : d'.events.rows =
    d.events.rows ++ BundleDb.eventRows commit seq (d.maxOffset commit.runId + 1)

/-- The reservation row leaves the log alone. -/
theorem reserved_of_insert {r : DedupeRecord} {d d' : BundleDb}
    (h : bundleTable.insertRow r d = .ok ((), d')) :
    ∃ t, d.dedupe.insert r = some t ∧ d' = { d with dedupe := t } := by
  unfold TableIn.insertRow at h
  split at h
  · split at h
    · rename_i t ht
      simp only [Except.ok.injEq, Prod.mk.injEq, true_and] at h
      exact ⟨t, ht, h.symm⟩
    · cases h
  · cases h

theorem recorded_of_appended {commit : ActionCommit} {envelope : IdempotencyEnvelope}
    {d d₁ d' : BundleDb} {seq : Nat}
    (hins : bundleTable.insertRow (envelope.record .reserved envelope.peerOperationId) d = .ok ((), d₁))
    (happ : Appended commit d₁ seq d') : Recorded commit envelope d seq d' := by
  obtain ⟨t, ht, rfl⟩ := reserved_of_insert hins
  obtain ⟨hfree, hrows⟩ := Table.rows_insert ht
  exact ⟨hfree, by rw [happ.dedupe]; exact hrows, happ.serialisable, happ.sequence, happ.commits,
    happ.events⟩

/-- How the body ends, by what it found under the key. -/
def RecordEnds (commit : ActionCommit) (envelope : IdempotencyEnvelope)
    (found : Option DedupeRecord) (d : BundleDb) (r : Conn.Close (String × DedupeReservation))
    (d' : BundleDb) : Prop :=
  match found with
  | some existing => r = .rollback ("", .duplicateOf existing)
  | none => ∃ seq, r = .commit (commitRef seq, .granted) ∧ Recorded commit envelope d seq d'

theorem recordBody_inTransaction (commit : ActionCommit) (envelope : IdempotencyEnvelope) :
    Conn.InTransaction (recordBody commit envelope) (fun d r d' =>
      (∃ seq, r = .commit (commitRef seq, .granted) ∧ Recorded commit envelope d seq d') ∨
      ∃ existing, r = .rollback ("", .duplicateOf existing) ∧
        d.dedupe.select envelope.dispatchIdempotencyKey = some existing) := by
  refine (Conn.InTransaction.bind (Conn.InTransaction.exec busy _)
    (R := RecordEnds commit envelope) (fun found => ?_)).mono ?_
  · cases found with
    | some existing => exact (Conn.InTransaction.pure _).mono (fun _ _ _ h => h.1)
    | none =>
      refine (Conn.InTransaction.bind (Conn.InTransaction.exec busy _) (fun _ =>
        Conn.InTransaction.bind (appendRows_inTransaction commit)
          (fun _ => Conn.InTransaction.pure _))).mono ?_
      intro d _ d' hran
      obtain ⟨_, d₁, hins, seq, _, happ, rfl, rfl⟩ := hran
      exact ⟨seq, rfl, recorded_of_appended hins happ⟩
  · intro d r d' hran
    obtain ⟨found, _, hsel, hr⟩ := hran
    simp only [TableIn.selectRow, Except.ok.injEq, Prod.mk.injEq] at hsel
    obtain ⟨hfound, rfl⟩ := hsel
    cases found with
    | some existing => exact .inr ⟨existing, hr, hfound⟩
    | none => exact .inl hr

/-- **A dispatch record is all or nothing**, wherever a statement or a payload
fails. -/
theorem atomicDispatchRecord_atomic (commit : ActionCommit) (envelope : IdempotencyEnvelope) :
    Conn.Atomic (atomicDispatchRecord commit envelope) (fun d a d' =>
      (∃ seq, a = (commitRef seq, .granted) ∧ commit.events ≠ [] ∧
        Recorded commit envelope d seq d') ∨
      ∃ existing, a = ("", .duplicateOf existing) ∧
        d.dedupe.select envelope.dispatchIdempotencyKey = some existing ∧ d' = d) := by
  unfold atomicDispatchRecord
  split
  · intro c hc
    exact .inr ⟨emptyCommit, c, rfl, hc, rfl⟩
  · rename_i hne
    have hevents : commit.events ≠ [] := fun h => hne (List.isEmpty_iff.mpr h)
    refine (Conn.transaction_atomic (recordBody_inTransaction commit envelope) busy false).mono ?_
    intro d a d' hends
    rcases hends with (⟨seq, he, hrec⟩ | ⟨_, he, _⟩) | ⟨⟨_, hbody⟩, rfl⟩
    · cases he
      exact .inl ⟨seq, rfl, hevents, hrec⟩
    · cases he
    · rcases hbody with ⟨_, he, _⟩ | ⟨existing, he, hsel⟩
      · cases he
      · cases he
        exact .inr ⟨existing, rfl, hsel, rfl⟩

end ColocatedSQLiteBundle

/-! ### Without failures -/

namespace SharedEventLog

/-- The next row of a commit is free: its run ends before it, its commit is there
and has no row from its index on. -/
structure Room (runId : String) (seq startOffset idx : Nat) (d : BundleDb) : Prop where
  offset : ∀ r ∈ d.events.rows, r.streamRunId = runId → r.commitOffset < startOffset + idx
  index : ∀ r ∈ d.events.rows, r.commitSequence = seq → r.eventIndex < idx
  commit : seq ∈ d.commits.rows.map CommitRow.commitSequence

theorem Room.insertEvent_ok {runId : String} {seq startOffset idx : Nat} {d : BundleDb}
    (h : Room runId seq startOffset idx d) (event : RuntimeEvent) :
    ∃ d', BundleDb.insertEvent (BundleDb.eventRow runId seq startOffset idx event) d = .ok ((), d') := by
  refine BundleDb.insertEvent_ok ?_ ?_ h.commit
  · rw [Table.select_eq_none_iff]
    intro hmem
    obtain ⟨r, hr, hkey⟩ := List.mem_map.mp hmem
    have hkeys : r.streamRunId = runId ∧ r.commitOffset = startOffset + idx := Prod.mk.injEq .. ▸ hkey
    have hlt := h.offset r hr hkeys.1
    omega
  · intro hmem
    obtain ⟨r, hr, hkey⟩ := List.mem_map.mp hmem
    have hkeys : r.commitSequence = seq ∧ r.eventIndex = idx := Prod.mk.injEq .. ▸ hkey
    have hlt := h.index r hr hkeys.1
    omega

/-- The row leaves room for the next one. -/
theorem Room.after_insert {runId : String} {seq startOffset idx : Nat} {d d' : BundleDb}
    (h : Room runId seq startOffset idx d) {event : RuntimeEvent}
    (hins : BundleDb.insertEvent (BundleDb.eventRow runId seq startOffset idx event) d = .ok ((), d')) :
    Room runId seq startOffset (idx + 1) d' := by
  obtain ⟨hrows, hcommits, _⟩ := BundleDb.eventAdded_of_insert hins
  refine ⟨?_, ?_, by rw [hcommits]; exact h.commit⟩
  · intro r hr hrun
    rw [hrows] at hr
    rcases List.mem_append.mp hr with hr | hr
    · have hlt := h.offset r hr hrun
      omega
    · rw [List.mem_singleton.mp hr]
      exact Nat.lt_succ_self _
  · intro r hr hseq
    rw [hrows] at hr
    rcases List.mem_append.mp hr with hr | hr
    · have hlt := h.index r hr hseq
      omega
    · rw [List.mem_singleton.mp hr]
      exact Nat.lt_succ_self _

theorem dumps_apply {event : RuntimeEvent} (h : Serialisable event) (c : Conn BundleDb) :
    dumps event.payloadJson c = .ok event.payloadJson c := by
  have hwritten : serialized id event.payloadJson = .ok event.payloadJson :=
    serialized_ok_iff.mpr ⟨Option.map_id'.symm, h⟩
  rw [dumps, hwritten]
  rfl

theorem insertEventRows_open (runId : String) (seq startOffset : Nat) (d₀ : BundleDb)
    (events : List RuntimeEvent) (idx : Nat) (d : BundleDb) (hroom : Room runId seq startOffset idx d)
    (hser : ∀ event ∈ events, Serialisable event) :
    ∃ d', insertEventRows runId seq startOffset events idx ⟨d₀, some d, []⟩ =
      .ok () ⟨d₀, some d', []⟩ := by
  induction events generalizing idx d with
  | nil => exact ⟨d, rfl⟩
  | cons event rest ih =>
    obtain ⟨d₁, hins⟩ := hroom.insertEvent_ok event
    obtain ⟨d', hrest⟩ := ih (idx + 1) d₁ (hroom.after_insert hins)
      (fun e he => hser e (List.mem_cons_of_mem event he))
    refine ⟨d', ?_⟩
    have hrow : BundleDb.insertEvent { BundleDb.eventRow runId seq startOffset idx event with
        payloadJson := event.payloadJson } d = .ok ((), d₁) := hins
    simp only [insertEventRows, Call.bind_apply, dumps_apply (hser event List.mem_cons_self),
      Conn.exec_open, hrow, hrest]

/-- A new commit has room for all its rows. -/
theorem room_of_commitAdded {commit : ActionCommit} {d d' : BundleDb} {seq : Nat}
    (h : BundleDb.CommitAdded commit d seq d') :
    Room commit.runId seq (d.maxOffset commit.runId + 1) 0 d' := by
  refine ⟨?_, ?_, by simp [h.commits, BundleDb.commitRow]⟩
  · intro r hr hrun
    rw [h.events] at hr
    have hle := d.le_maxOffset hr
    rw [hrun] at hle
    omega
  · -- Older rows belong to older commits.
    intro r hr hseq
    rw [h.events] at hr
    obtain ⟨c, hc, hcseq⟩ := List.mem_map.mp (d.foreignKey r hr)
    have hle := d.autoincrement c hc
    have hnew := h.sequence
    omega

theorem appendRows_open {commit : ActionCommit} (hne : commit.events ≠ [])
    (hser : ∀ event ∈ commit.events, Serialisable event) (d₀ d : BundleDb) :
    ∃ seq d', appendRows commit ⟨d₀, some d, []⟩ = .ok seq ⟨d₀, some d', []⟩ := by
  obtain ⟨d₁, hins⟩ := BundleDb.insertCommit_ok hne d
  obtain ⟨d', hrows⟩ := insertEventRows_open commit.runId (d.lastSequence + 1)
    (d.maxOffset commit.runId + 1) d₀ commit.events 0 d₁
    (room_of_commitAdded (BundleDb.commitAdded_of_insert hins)) hser
  refine ⟨d.lastSequence + 1, d', ?_⟩
  simp only [appendRows, nextOffset, insertCommitRow, Call.bind_apply, Conn.exec_open,
    BundleDb.selectMaxOffset, Call.pure_apply, hins, hrows]

end SharedEventLog

namespace ColocatedSQLiteBundle
open SharedEventLog

/-- Nothing but the four refusals keeps a record out, when no statement fails by
itself. -/
theorem atomicDispatchRecord_idle {commit : ActionCommit} {envelope : IdempotencyEnvelope}
    {d : BundleDb} (hne : commit.events ≠ []) (hser : ∀ event ∈ commit.events, Serialisable event)
    (hfree : d.dedupe.select envelope.dispatchIdempotencyKey = none)
    (hfits : FitsInt64 envelope.attemptSeq) :
    ∃ seq d', atomicDispatchRecord commit envelope (Conn.idle d []) =
      .ok (commitRef seq, .granted) (Conn.idle d' []) := by
  have hempty : commit.events.isEmpty = false := by
    rw [Bool.eq_false_iff, Ne, List.isEmpty_iff]
    exact hne
  obtain ⟨d₁, hins⟩ := bundleTable.insertRow_ok (d := d)
    (r := envelope.record .reserved envelope.peerOperationId) hfits hfree
  obtain ⟨seq, d', happ⟩ := appendRows_open hne hser d d₁
  have hbody : recordBody commit envelope ⟨d, some d, []⟩ =
      .ok (.commit (commitRef seq, .granted)) ⟨d, some d', []⟩ := by
    have hget := bundleTable.get_open envelope.dispatchIdempotencyKey d d
    have hnone : bundleTable.ledger d envelope.dispatchIdempotencyKey = none := hfree
    simp only [recordBody, Call.bind_apply, hget, hnone, Conn.exec_open, hins, happ, Call.pure_apply]
  refine ⟨seq, d', ?_⟩
  simp only [atomicDispatchRecord, hempty]
  exact Conn.transaction_idle busy false hbody

/-! ### Runs of calls on a bundle -/

inductive BundleCall where
  | atomicDispatchRecord (commit : ActionCommit) (envelope : IdempotencyEnvelope)
  | appendActionCommit (commit : ActionCommit)
  | load (runId : String) (afterOffset : Int)
  | maxOffset (runId : String)
  | dedupe (call : LedgerCall)
  | countByRun (runId : String)

/-- The connection after a call. The lock of the bundle makes each call one step. -/
def next (c : Conn BundleDb) : BundleCall → Conn BundleDb
  | .atomicDispatchRecord commit envelope => (atomicDispatchRecord commit envelope).after c
  | .appendActionCommit commit => (appendActionCommit commit).after c
  | .load runId afterOffset => (load runId afterOffset).after c
  | .maxOffset runId => (maxOffset runId).after c
  | .dedupe call => (perform SharedDedupeStore.port call).after c
  | .countByRun runId => (SharedDedupeStore.port.countByRun runId).after c

/-- Every call ends the transaction it began. -/
theorem next_idle (c : Conn BundleDb) (call : BundleCall) (h : c.working = none) :
    (next c call).working = none := by
  cases call with
  | atomicDispatchRecord commit envelope =>
    exact (atomicDispatchRecord_atomic commit envelope).working_after h
  | appendActionCommit commit => exact (appendActionCommit_atomic commit).working_after h
  | load runId afterOffset =>
    show ((SharedEventLog.load runId afterOffset).after c).working = none
    unfold SharedEventLog.load
    split
    · exact ((Conn.exec_atomic busy _).map _).working_after h
    · exact h
  | maxOffset runId => exact (Conn.exec_atomic busy _).working_after h
  | dedupe call => exact (bundleTable.methods_keep.keeps call c (call.within_all _) h).1
  | countByRun runId => exact ((Conn.exec_atomic busy _).map _).working_after h

/-- The connection of a bundle after any calls. -/
def afterBundleCalls (db : BundleDb) (faults : List Bool) (calls : List BundleCall) : Conn BundleDb :=
  run next (Conn.idle db faults) calls

theorem afterBundleCalls_idle (db : BundleDb) (faults : List Bool) (calls : List BundleCall) :
    (afterBundleCalls db faults calls).working = none :=
  @run_invariant _ _ next (fun c => c.working = none) next_idle _ rfl calls

/-- What holds of a dispatch record on a connection. -/
structure AllOrNothing (c : Conn BundleDb) (commit : ActionCommit) (envelope : IdempotencyEnvelope) :
    Prop where
  /-- An accepted one adds the reservation, the commit and its events. -/
  accepted : ∀ ref reservation, (atomicDispatchRecord commit envelope).outcome c = .ok (ref, reservation) →
    reservation.accepted = true → ∃ seq, ref = commitRef seq ∧
      Recorded commit envelope c.committed seq ((atomicDispatchRecord commit envelope).after c).committed
  /-- A rejected one returns the record of its key and changes nothing. -/
  rejected : ∀ ref reservation, (atomicDispatchRecord commit envelope).outcome c = .ok (ref, reservation) →
    reservation.accepted = false →
      ((atomicDispatchRecord commit envelope).after c).committed = c.committed ∧
      ∃ existing, c.committed.dedupe.select envelope.dispatchIdempotencyKey = some existing ∧
        reservation = .duplicateOf existing
  /-- A raising one changes nothing. -/
  raised : ∀ e, (atomicDispatchRecord commit envelope).outcome c = .error e →
    ((atomicDispatchRecord commit envelope).after c).committed = c.committed
  /-- An empty commit, a taken key and a payload without JSON form are never accepted. -/
  refused : commit.events = [] ∨
      (∃ existing, c.committed.dedupe.select envelope.dispatchIdempotencyKey = some existing) ∨
      (∃ event ∈ commit.events, ¬ Serialisable event) →
    ((atomicDispatchRecord commit envelope).after c).committed = c.committed ∧
    ∀ ref reservation, (atomicDispatchRecord commit envelope).outcome c = .ok (ref, reservation) →
      reservation.accepted = false
  /-- Everything else is accepted, unless a statement fails by itself. -/
  accepts : c.faults = [] → commit.events ≠ [] → (∀ event ∈ commit.events, Serialisable event) →
    c.committed.dedupe.select envelope.dispatchIdempotencyKey = none →
    FitsInt64 envelope.attemptSeq →
    ∃ seq, (atomicDispatchRecord commit envelope).outcome c = .ok (commitRef seq, .granted)

/-- The three ways a call can end. -/
theorem recorded_or_unchanged (commit : ActionCommit) (envelope : IdempotencyEnvelope)
    {c : Conn BundleDb} (h : c.working = none) :
    (∃ seq, (atomicDispatchRecord commit envelope).outcome c = .ok (commitRef seq, .granted) ∧
        commit.events ≠ [] ∧ Recorded commit envelope c.committed seq
          ((atomicDispatchRecord commit envelope).after c).committed) ∨
      ((atomicDispatchRecord commit envelope).after c).committed = c.committed ∧
        ((∃ existing, c.committed.dedupe.select envelope.dispatchIdempotencyKey = some existing ∧
            (atomicDispatchRecord commit envelope).outcome c = .ok ("", .duplicateOf existing)) ∨
          ∃ e, (atomicDispatchRecord commit envelope).outcome c = .error e) := by
  rcases atomicDispatchRecord_atomic commit envelope c h with ⟨a, c', he, _, hQ⟩ | ⟨e, c', he, _, hsame⟩
  · obtain ⟨ho, ha⟩ := Call.outcome_ok he
    rw [ho, ha]
    rcases hQ with ⟨seq, rfl, hne, hrec⟩ | ⟨existing, rfl, hsel, hsame⟩
    · exact .inl ⟨seq, rfl, hne, hrec⟩
    · exact .inr ⟨hsame, .inl ⟨existing, hsel, rfl⟩⟩
  · obtain ⟨ho, ha⟩ := Call.outcome_error he
    rw [ho, ha]
    exact .inr ⟨hsame, .inr ⟨e, rfl⟩⟩

theorem allOrNothing_of_idle (commit : ActionCommit) (envelope : IdempotencyEnvelope)
    {c : Conn BundleDb} (h : c.working = none) : AllOrNothing c commit envelope where
  accepted := by
    intro ref reservation ho hacc
    rcases recorded_or_unchanged commit envelope h with
      ⟨seq, ho', _, hrec⟩ | ⟨_, ⟨existing, _, ho'⟩ | ⟨e, ho'⟩⟩ <;> rw [ho'] at ho <;> cases ho
    · exact ⟨seq, rfl, hrec⟩
    · cases hacc
  rejected := by
    intro ref reservation ho hacc
    rcases recorded_or_unchanged commit envelope h with
      ⟨seq, ho', _, hrec⟩ | ⟨hsame, ⟨existing, hsel, ho'⟩ | ⟨e, ho'⟩⟩ <;> rw [ho'] at ho <;> cases ho
    · cases hacc
    · exact ⟨hsame, existing, hsel, rfl⟩
  raised := by
    intro e ho
    rcases recorded_or_unchanged commit envelope h with ⟨seq, ho', _, _⟩ | ⟨hsame, _⟩
    · rw [ho'] at ho
      cases ho
    · exact hsame
  refused := by
    intro hwhy
    rcases recorded_or_unchanged commit envelope h with
      ⟨seq, _, hne, hrec⟩ | ⟨hsame, ⟨existing, _, ho'⟩ | ⟨e, ho'⟩⟩
    · exfalso
      rcases hwhy with hempty | ⟨existing, hsel⟩ | ⟨event, hmem, hser⟩
      · exact hne hempty
      · rw [hrec.free] at hsel
        cases hsel
      · exact hser (hrec.serialisable event hmem)
    · refine ⟨hsame, fun ref reservation ho => ?_⟩
      rw [ho'] at ho
      cases ho
      rfl
    · refine ⟨hsame, fun ref reservation ho => ?_⟩
      rw [ho'] at ho
      cases ho
  accepts := by
    intro hfaults hne hser hfree hfits
    obtain ⟨committed, working, faults⟩ := c
    obtain rfl : working = none := h
    obtain rfl : faults = [] := hfaults
    obtain ⟨seq, d', he⟩ := atomicDispatchRecord_idle hne hser hfree hfits
    exact ⟨seq, (Call.outcome_ok he).1⟩

/-- A call on an idle connection adds as many commits as keys. -/
theorem record_in_step (commit : ActionCommit) (envelope : IdempotencyEnvelope) {c : Conn BundleDb}
    (h : c.working = none) (heq : c.committed.commits.rows.length = c.committed.dedupe.rows.length) :
    ((atomicDispatchRecord commit envelope).after c).committed.commits.rows.length =
      ((atomicDispatchRecord commit envelope).after c).committed.dedupe.rows.length := by
  rcases recorded_or_unchanged commit envelope h with ⟨seq, _, _, hrec⟩ | ⟨hsame, _⟩
  · rw [hrec.commits, hrec.reserved, List.length_append, List.length_append, heq]
    rfl
  · rw [hsame]
    exact heq

/-- A run made only of dispatch records. -/
def afterRecords (db : BundleDb) (faults : List Bool)
    (records : List (ActionCommit × IdempotencyEnvelope)) : Conn BundleDb :=
  afterBundleCalls db faults (records.map (fun r => .atomicDispatchRecord r.1 r.2))

theorem records_in_step {db : BundleDb} (heq : db.commits.rows.length = db.dedupe.rows.length)
    (faults : List Bool) (records : List (ActionCommit × IdempotencyEnvelope)) :
    (afterRecords db faults records).committed.commits.rows.length =
      (afterRecords db faults records).committed.dedupe.rows.length := by
  have hrun := @run_invariant_of _ _ next
    (fun c => c.working = none ∧
      c.committed.commits.rows.length = c.committed.dedupe.rows.length)
    (fun call => ∃ r : ActionCommit × IdempotencyEnvelope, call = .atomicDispatchRecord r.1 r.2)
    (by
      intro c _ hrecord hboth
      obtain ⟨r, rfl⟩ := hrecord
      obtain ⟨hidle, hlen⟩ := hboth
      exact ⟨next_idle c _ hidle, record_in_step r.1 r.2 hidle hlen⟩)
    (Conn.idle db faults) ⟨rfl, heq⟩ (records.map (fun r => .atomicDispatchRecord r.1 r.2))
    (by
      intro call hcall
      obtain ⟨r, _, rfl⟩ := List.mem_map.mp hcall
      exact ⟨r, rfl⟩)
  exact hrun.2

/-- **Colocated dispatch records.** After any calls on a bundle, with any of their
statements failing, a dispatch record adds its reservation and its events or changes
nothing, and runs of dispatch records alone keep as many commits as keys. -/
theorem colocated_dispatch_all_or_nothing (db : BundleDb) (faults : List Bool)
    (calls : List BundleCall) (commit : ActionCommit) (envelope : IdempotencyEnvelope) :
    AllOrNothing (afterBundleCalls db faults calls) commit envelope ∧
      ∀ records : List (ActionCommit × IdempotencyEnvelope),
        (afterRecords .empty faults records).committed.commits.rows.length =
          (afterRecords .empty faults records).committed.dedupe.rows.length :=
  ⟨allOrNothing_of_idle commit envelope (afterBundleCalls_idle db faults calls),
    fun records => records_in_step rfl faults records⟩

end ColocatedSQLiteBundle
end AgentKernel.Persistence
