import AgentKernel.Lib.Linearizable
import AgentKernel.Persistence.PgDedupe
import AgentKernel.Recovery.Gate

/-! The circuit-breaker store over PostgreSQL, shared by several gates.

Each method is one statement in a transaction of its own. A failure is an upsert, which locks
its row, present or not; a reset deletes the row it finds and overlooks one that another
session has inserted and not yet committed. What texts the server holds and indexes is a
parameter.

Every history is linearizable (`run_linearizable_rows`), so no failure is lost among
concurrent ones (`failures_counted`): each makes the next version of its row, with one more
than the count it was committed on. -/
namespace AgentKernel.Recovery.PostgresCircuitBreakerStore
open Lib Persistence

inductive BreakerCall where
  | getState (effectClass : String)
  | recordFailure (effectClass : String) (now : ℚ)
  | reset (effectClass : String)
  deriving DecidableEq

inductive BreakerAnswer where
  | state (failureCount : Int) (lastFailureTs : ℚ)
  | count (failureCount : Int)
  | done
  deriving DecidableEq

abbrev BreakerTx := Tx PyError CircuitBreakerRows String BreakerAnswer

def BreakerCall.effectClass : BreakerCall → String
  | .getState c | .recordFailure c _ | .reset c => c

/-- `ON CONFLICT DO UPDATE`: the count after it, from the row there was. -/
def nextCount (row : Option (Int × ℚ)) : Int := (row.map (fun row => row.1 + 1)).getD 1

/-- The answer to `get_state` from the row, if there is one. -/
def stateOf (row : Option (Int × ℚ)) : BreakerAnswer :=
  .state (row.getD (0, 0)).1 (row.getD (0, 0)).2

section
variable (server : PgServer)

/-- `INSERT … ON CONFLICT DO UPDATE … RETURNING failure_count`. A new row has to fit the index. -/
def upsert (c : String) (now : ℚ) (rows : CircuitBreakerRows) : Except PyError (Int × CircuitBreakerRows) :=
  if rows.get? c = none ∧ server.indexable c = false then .error indexRowSize
  else .ok (nextCount (rows.get? c), rows.set c (nextCount (rows.get? c), now))

/-- The statement of a call whose class can be bound. -/
def statement : BreakerCall → BreakerTx
  | .getState c => .statement (fun _ => none) (fun _ rows => rows) (fun rows => .commit (stateOf (rows.get? c)))
  | .recordFailure c now => Tx.exec (fun _ => some c) (upsert server c now) (fun n => .commit (.count n))
  | .reset c =>
    .statement (fun rows => if (rows.get? c).isSome then some c else none)
      (fun found rows => if (found.get? c).isSome then rows.erase c else rows) (fun _ => .commit .done)

def program (call : BreakerCall) : BreakerTx :=
  match server.refusal [some call.effectClass] with
  | some e => .rollback e
  | none => statement server call

/-! ### The object -/

/-- The rows by class, in no order. -/
abbrev Rows := String → Option (Int × ℚ)

def view (rows : CircuitBreakerRows) : Rows := rows.get?

/-- What a call that can be bound does when nobody else is there. -/
def effect (rows : Rows) : BreakerCall → Except PyError BreakerAnswer × Rows
  | .getState c => (.ok (stateOf (rows c)), rows)
  | .recordFailure c now =>
    if rows c = none ∧ server.indexable c = false then (.error indexRowSize, rows)
    else (.ok (.count (nextCount (rows c))), Function.update rows c (some (nextCount (rows c), now)))
  | .reset c => (.ok .done, Function.update rows c none)

/-- What each method does when nobody else is there. -/
def answer (rows : Rows) (call : BreakerCall) : Except PyError BreakerAnswer × Rows :=
  match server.refusal [some call.effectClass] with
  | some e => (.error e, rows)
  | none => effect server rows call

end

theorem view_set (c : String) (row : Int × ℚ) (rows : CircuitBreakerRows) :
    view (rows.set c row) = Function.update (view rows) c (some row) := by
  funext other
  rw [Function.update_apply, view, Dict.get?_set]
  rfl

theorem view_erase (c : String) (rows : CircuitBreakerRows) :
    view (rows.erase c) = Function.update (view rows) c none := by
  funext other
  rw [Function.update_apply, view, Dict.get?_erase]
  rfl

theorem upsert_error {server : PgServer} {c : String} {now : ℚ} {rows : CircuitBreakerRows} {e : PyError}
    (h : upsert server c now rows = .error e) :
    effect server (view rows) (.recordFailure c now) = (.error e, view rows) := by
  have hrow : view rows c = rows.get? c := rfl
  unfold upsert at h
  split at h
  · rename_i hlong
    obtain rfl := Except.error.inj h
    rw [effect, hrow, if_pos hlong]
  · cases h

/-- What the upsert counts depends on the row alone. -/
theorem upsert_ok {server : PgServer} {c : String} {now : ℚ} {rows rows₁ : CircuitBreakerRows} {n : Int}
    (h : upsert server c now rows = .ok (n, rows₁)) {rows' : CircuitBreakerRows}
    (hsame : view rows' c = view rows c) :
    ∃ rows'', upsert server c now rows' = .ok (n, rows'') ∧
      view rows'' = Function.update (view rows') c (some (nextCount (view rows' c), now)) ∧
      effect server (view rows') (.recordFailure c now) = (.ok (.count n), view rows'') := by
  have hrow : rows'.get? c = rows.get? c := hsame
  have hview : view rows' c = rows.get? c := hsame
  unfold upsert at h
  split at h
  · cases h
  · rename_i hshort
    obtain ⟨rfl, _⟩ := Prod.mk.inj (Except.ok.inj h)
    refine ⟨rows'.set c (nextCount (rows.get? c), now), ?_, ?_, ?_⟩
    · rw [upsert, hrow, if_neg hshort]
    · rw [view_set, hview]
    · rw [effect, hview, if_neg hshort, view_set]

/-! ### Each call is linear -/

/-- A lock guards its row. -/
def rowLocks : Discipline CircuitBreakerRows String where
  Same := fun c rows rows' => view rows' c = view rows c
  Grows := fun _ _ => True
  Fresh := fun _ _ => True
  same_refl := fun _ _ => rfl
  same_trans := fun _ _ _ _ h h' => h'.trans h
  grows_refl := fun _ => trivial
  grows_trans := fun _ _ _ _ _ => trivial

theorem owes_update {locks : String → Prop} {rows rows' : CircuitBreakerRows} {c : String}
    {row : Option (Int × ℚ)} (hlock : locks c) (h : view rows' = Function.update (view rows) c row) :
    rowLocks.Owes locks [] rows rows' := by
  refine ⟨?_, fun _ _ hn => hn, trivial⟩
  intro other hother
  show view rows' other = view rows other
  rw [h, Function.update_of_ne]
  rintro rfl
  exact hother hlock

theorem owes_refl (locks : String → Prop) (rows : CircuitBreakerRows) : rowLocks.Owes locks [] rows rows :=
  ⟨fun _ _ => rfl, fun _ _ h => h, trivial⟩

/-- A call whose class can be bound. -/
theorem statement_sound (server : PgServer) {call : BreakerCall}
    (hanswer : ∀ rows, answer server rows call = effect server rows call) (rows : CircuitBreakerRows) :
    rowLocks.Sound (fun _ => CommitsLinear view (answer server) call)
      (RaisesLinear view (answer server) (fun _ => False) call) (statement server call) (fun _ => False) []
      id ⟨[], rows⟩ := by
  cases call with
  | getState c =>
    intro seen _ seen' hi
    refine ⟨.inr ⟨rfl, seen.current, hi.mem (Versions.current_mem _), ?_⟩, owes_refl _ _⟩
    rw [hanswer]
    rfl
  | recordFailure c now =>
    refine Discipline.Sound.exec ?_ ?_
    · intro seen n rows₁ _ hok seen' hi
      -- the lock kept the row: the upsert would count the same now
      obtain ⟨rows₂, hok', hview, heffect⟩ := upsert_ok hok (hi.relies.same c (.inr rfl))
      have hwrites : Tx.effect (upsert server c now) seen'.current = rows₂ := Tx.effect_ok hok'
      show CommitsLinear _ _ _ _ _ (Tx.effect (upsert server c now) seen'.current) ∧
        rowLocks.Owes _ _ _ (Tx.effect (upsert server c now) seen'.current)
      rw [hwrites]
      refine ⟨.inl ?_, owes_update (.inr rfl) hview⟩
      rw [hanswer, heffect]
    · intro seen e _ herr seen' hi
      refine .inr ⟨seen.current, hi.mem (Versions.current_mem _), ?_⟩
      rw [hanswer]
      exact upsert_error herr
  | reset c =>
    intro seen _ seen' hi
    by_cases hthere : (seen.current.get? c).isSome = true
    · have hwrite : (if (seen.current.get? c).isSome = true then seen'.current.erase c else seen'.current) =
        seen'.current.erase c := if_pos hthere
      show CommitsLinear _ _ _ _ _ (if _ then _ else _) ∧ _
      simp only [id_eq, hwrite]
      refine ⟨.inl ?_, owes_update (.inr (if_pos hthere)) (view_erase c seen'.current)⟩
      rw [hanswer, view_erase]
      rfl
    · -- No row was seen: the reset took effect when it looked.
      have hwrite : (if (seen.current.get? c).isSome = true then seen'.current.erase c else seen'.current) =
        seen'.current := if_neg hthere
      have hnone : view seen.current c = none := Option.not_isSome_iff_eq_none.mp hthere
      simp only [id_eq, hwrite]
      refine ⟨.inr ⟨rfl, seen.current, hi.mem (Versions.current_mem _), ?_⟩, owes_refl _ _⟩
      rw [hanswer, effect, Function.update_eq_self_iff.mpr hnone.symm]

theorem program_sound (server : PgServer) :
    SoundProgram rowLocks (fun call _ => CommitsLinear view (answer server) call)
      (RaisesLinear view (answer server) (fun _ => False)) (program server) := by
  intro call rows
  unfold program
  split
  · rename_i e hrefused
    refine fun seen hi => .inr ⟨rows, hi.mem (List.mem_singleton.mpr rfl), ?_⟩
    rw [answer, hrefused]
  · rename_i hbound
    refine statement_sound server (fun rows => ?_) rows
    rw [answer, hbound]

/-! ### Every run -/

section
variable {ι : Type}

abbrev BreakerHistory (ι : Type) := History ι PyError CircuitBreakerRows BreakerCall BreakerAnswer

/-- What the sessions do to the counts. -/
structure FailuresCounted (server : PgServer) (h : BreakerHistory ι) : Prop where
  linearizable : Linearizable view (answer server) (fun _ => False) h
  /-- A failure that is answered made a version, with one more than the count before it. -/
  recorded : ∀ e ∈ h.entries, ∀ c now a, e.call = .recordFailure c now → e.outcome = .ok a →
    ∃ rows rows', h.versions.all[e.upto]? = some rows ∧ h.versions.all[e.upto + 1]? = some rows' ∧
      a = .count (nextCount (view rows c)) ∧ view rows' c = some (nextCount (view rows c), now)
  /-- From one version of a row to the next there is such a failure, or a reset. -/
  succession : ∀ (m : Nat) rows rows', h.versions.all[m]? = some rows →
    h.versions.all[m + 1]? = some rows' → ∀ c, view rows' c ≠ view rows c →
      ∃ e ∈ h.entries, e.upto = m ∧
        ((e.call = .reset c ∧ e.outcome = .ok .done ∧ view rows' c = none) ∨
          ∃ now, e.call = .recordFailure c now ∧ e.outcome = .ok (.count (nextCount (view rows c))) ∧
            view rows' c = some (nextCount (view rows c), now))
  /-- A reading shows a version that was current while it was made. -/
  read : ∀ e ∈ h.entries, ∀ c a, e.call = .getState c → e.outcome = .ok a →
    ∃ m rows, e.since ≤ m ∧ m ≤ e.upto ∧ h.versions.all[m]? = some rows ∧ a = stateOf (view rows c)

/-- A failure that is answered counts. -/
theorem answer_recordFailure {server : PgServer} {rows rows' : Rows} {c : String} {now : ℚ}
    {a : BreakerAnswer} (h : answer server rows (.recordFailure c now) = (.ok a, rows')) :
    a = .count (nextCount (rows c)) ∧ rows' = Function.update rows c (some (nextCount (rows c), now)) := by
  unfold answer at h
  split at h
  · cases (Prod.mk.inj h).1
  · rw [effect] at h
    split at h
    · cases (Prod.mk.inj h).1
    · obtain ⟨ha, hrows⟩ := Prod.mk.inj h
      exact ⟨(Except.ok.inj ha).symm, hrows.symm⟩

theorem answer_getState {server : PgServer} {rows rows' : Rows} {c : String} {a : BreakerAnswer}
    (h : answer server rows (.getState c) = (.ok a, rows')) : a = stateOf (rows c) := by
  unfold answer at h
  split at h
  · cases (Prod.mk.inj h).1
  · exact (Except.ok.inj (Prod.mk.inj h).1).symm

/-- What changes the row of a class is a failure or a reset of the class. -/
theorem answer_changes {server : PgServer} {rows rows' : Rows} {call : BreakerCall}
    {outcome : Except PyError BreakerAnswer} (h : answer server rows call = (outcome, rows')) {c : String}
    (hc : rows' c ≠ rows c) :
    (call = .reset c ∧ outcome = .ok .done ∧ rows' c = none) ∨
      ∃ now, call = .recordFailure c now ∧ outcome = .ok (.count (nextCount (rows c))) ∧
        rows' c = some (nextCount (rows c), now) := by
  unfold answer at h
  split at h
  · exact absurd (congrFun (Prod.mk.inj h).2.symm c) hc
  cases call with
  | getState d => exact absurd (congrFun (Prod.mk.inj h).2.symm c) hc
  | recordFailure d now =>
    rw [effect] at h
    split at h
    · exact absurd (congrFun (Prod.mk.inj h).2.symm c) hc
    · obtain ⟨rfl, rfl⟩ := Prod.mk.inj h
      by_cases hd : c = d
      · subst hd
        exact .inr ⟨now, rfl, rfl, Function.update_self ..⟩
      · exact absurd (Function.update_of_ne hd ..) hc
  | reset d =>
    obtain ⟨rfl, rfl⟩ := Prod.mk.inj h
    by_cases hd : c = d
    · subst hd
      exact .inl ⟨rfl, rfl, Function.update_self ..⟩
    · exact absurd (Function.update_of_ne hd ..) hc

/-- A count is never the one before it. -/
theorem nextCount_ne (row : Option (Int × ℚ)) (now : ℚ) : row ≠ some (nextCount row, now) := by
  intro h
  cases row with
  | none => cases h
  | some row =>
    have hcount : row.1 = row.1 + 1 := congrArg Prod.fst (Option.some.inj h)
    omega

variable [DecidableEq ι]

/-- The server after any steps of its sessions. -/
abbrev serverAfter (server : PgServer) (steps : List (SessionStep ι BreakerCall)) :
    Server ι PyError CircuitBreakerRows String BreakerCall BreakerAnswer :=
  run (Server.next (program server)) (.init .empty) steps

/-- **The store is linearizable**; an error is one of its texts. -/
theorem run_linearizable_rows (server : PgServer) (steps : List (SessionStep ι BreakerCall)) :
    Linearizable view (answer server) (fun _ => False) (serverAfter server steps).history :=
  run_linearizable view (answer server) (fun _ => False) (program_sound server) (fun _ _ => trivial) steps

omit [DecidableEq ι] in
theorem FailuresCounted.of_linearizable {server : PgServer} {h : BreakerHistory ι}
    (hlin : Linearizable view (answer server) (fun _ => False) h) : FailuresCounted server h where
  linearizable := hlin
  recorded := by
    intro e he c now a hcall hok
    rcases hlin.answered e he with ⟨rows, rows', hrows, hrows', ha⟩ | ⟨m, rows, _, _, _, ha⟩ | ⟨_, _, hfalse⟩
    · rw [hcall, hok] at ha
      obtain ⟨hcount, hview⟩ := answer_recordFailure ha
      refine ⟨rows, rows', hrows, hrows', hcount, ?_⟩
      rw [hview, Function.update_self]
    · rw [hcall, hok] at ha
      have hrow := congrFun (answer_recordFailure ha).2 c
      rw [Function.update_self] at hrow
      exact absurd hrow (nextCount_ne _ now)
    · exact hfalse.elim
  succession := by
    intro m rows rows' hrows hrows' c hc
    rcases hlin.changed m rows rows' hrows hrows' with hsame | ⟨e, he, hupto, ha⟩
    · exact absurd (congrFun hsame c) hc
    · exact ⟨e, he, hupto, answer_changes ha hc⟩
  read := by
    intro e he c a hcall hok
    rcases hlin.answered e he with ⟨rows, _, hrows, _, ha⟩ | ⟨m, rows, hge, hle, hrows, ha⟩ | ⟨_, _, hfalse⟩
    · rw [hcall, hok] at ha
      exact ⟨e.upto, rows, hlin.began e he, Nat.le_refl _, hrows, answer_getState ha⟩
    · rw [hcall, hok] at ha
      exact ⟨m, rows, hge, hle, hrows, answer_getState ha⟩
    · exact hfalse.elim

/-- **No failure is lost among concurrent ones.** -/
theorem failures_counted (server : PgServer) (steps : List (SessionStep ι BreakerCall)) :
    FailuresCounted server (serverAfter server steps).history :=
  .of_linearizable (run_linearizable_rows server steps)

end

end AgentKernel.Recovery.PostgresCircuitBreakerStore
