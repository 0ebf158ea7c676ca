import AgentKernel.Lib.Call

/-! Transactions on a database connection.

A connection holds the committed database and, while a transaction is open, the
database that transaction sees. Any statement may fail for reasons of its own
(the `faults` of the connection, one for each statement to come), and a statement
that fails changes nothing; only a rollback of an open transaction cannot fail.
Outside a transaction a statement commits by itself.

`InTransaction` is the rule for the statements between begin and commit, `Atomic`
the rule for a whole method: it returns with the database it committed, or raises
with the database as it was, and leaves no transaction open either way. -/
namespace AgentKernel.Lib

structure Conn (δ : Type) where
  committed : δ
  working : Option δ
  faults : List Bool

namespace Conn
variable {ε δ α β : Type}

/-- A connection with no open transaction. -/
def idle (d : δ) (faults : List Bool) : Conn δ := ⟨d, none, faults⟩

/-- The database the next statement reads. -/
def view (c : Conn δ) : δ := c.working.getD c.committed

/-- Where the result of a statement goes. -/
def write (c : Conn δ) (d : δ) : Conn δ :=
  match c.working with
  | some _ => { c with working := some d }
  | none => { c with committed := d }

/-- The statement's turn to fail, if the connection says so. -/
def fault (down : ε) : Call ε (Conn δ) Unit := fun c =>
  match c.faults with
  | true :: rest => .error down { c with faults := rest }
  | false :: rest => .ok () { c with faults := rest }
  | [] => .ok () c

/-- The statement itself: it reads the view and writes the result, or fails. -/
def statementCall (statement : δ → Except ε (α × δ)) : Call ε (Conn δ) α := fun c =>
  match statement c.view with
  | .ok (a, d) => .ok a (c.write d)
  | .error e => .error e c

/-- Execute one statement. -/
def exec (down : ε) (statement : δ → Except ε (α × δ)) : Call ε (Conn δ) α := do
  fault down
  statementCall statement

def openCall (down : ε) : Call ε (Conn δ) Unit := fun c =>
  match c.working with
  | some _ => .error down c
  | none => .ok () { c with working := some c.committed }

/-- `BEGIN`; an error inside a transaction. -/
def begin (down : ε) : Call ε (Conn δ) Unit := do
  fault down
  openCall down

def commitCall (down : ε) : Call ε (Conn δ) Unit := fun c =>
  match c.working with
  | some d => .ok () { c with committed := d, working := none }
  | none => .error down c

/-- `COMMIT`; when it fails the transaction stays open. -/
def commit (down : ε) : Call ε (Conn δ) Unit := do
  fault down
  commitCall down

/-- `ROLLBACK`; an error only when no transaction is open. -/
def rollback (down : ε) : Call ε (Conn δ) Unit := fun c =>
  match c.working with
  | some _ => .ok () { c with working := none }
  | none => .error down c

/-- Commit what the body wrote and return its value, or roll it back and return
its value all the same. -/
inductive Close (α : Type) where
  | commit (a : α)
  | rollback (a : α)

def close (down : ε) : Close α → Call ε (Conn δ) α
  | .commit a => do commit down; pure a
  | .rollback a => do rollback down; pure a

/-- The rollback of an error handler; a quiet one drops its own error. -/
def undo (down : ε) (quiet : Bool) : Call ε (Conn δ) Unit :=
  if quiet then Call.suppress (rollback down) else rollback down

/-- Begin, then the body; an error of the body rolls back and is raised again. -/
def transaction (down : ε) (quiet : Bool) (body : Call ε (Conn δ) (Close α)) :
    Call ε (Conn δ) α := do
  begin down
  tryCatch (do let r ← body; close down r) (fun e => do undo down quiet; throw e)

/-- The same with the begin inside the guarded part: the handler may find no
transaction to roll back, so it is quiet. -/
def guardedTransaction (down : ε) (body : Call ε (Conn δ) (Close α)) : Call ε (Conn δ) α :=
  tryCatch (do begin down; let r ← body; close down r) (fun e => do undo down true; throw e)

/-! ### Statements inside a transaction -/

/-- From an open transaction the call stays inside it: what was committed before is
kept, and when it returns `Q` relates the databases it saw before and after. -/
def InTransaction (x : Call ε (Conn δ) α) (Q : δ → α → δ → Prop) : Prop :=
  ∀ (c : Conn δ) (d : δ), c.working = some d →
    (∃ a c' d', x c = .ok a c' ∧ c'.working = some d' ∧ c'.committed = c.committed ∧ Q d a d') ∨
      ∃ e c' d', x c = .error e c' ∧ c'.working = some d' ∧ c'.committed = c.committed

/-- A fault only uses up its own entry. -/
theorem fault_cases (down : ε) (c : Conn δ) :
    (∃ rest, (fault down : Call ε (Conn δ) Unit) c = .error down { c with faults := rest }) ∨
      ∃ rest, (fault down : Call ε (Conn δ) Unit) c = .ok () { c with faults := rest } := by
  obtain ⟨committed, working, faults⟩ := c
  match faults with
  | true :: rest => exact .inl ⟨rest, rfl⟩
  | false :: rest => exact .inr ⟨rest, rfl⟩
  | [] => exact .inr ⟨[], rfl⟩

namespace InTransaction

theorem pure (a : α) :
    InTransaction (Pure.pure a : Call ε (Conn δ) α) (fun d a' d' => a' = a ∧ d' = d) := by
  intro c d h
  exact .inl ⟨a, c, d, rfl, h, rfl, rfl, rfl⟩

theorem throw (e : ε) (Q : δ → α → δ → Prop) :
    InTransaction (MonadExcept.throw e : Call ε (Conn δ) α) Q := by
  intro c d h
  exact .inr ⟨e, c, d, rfl, h, rfl⟩

theorem exec (down : ε) (statement : δ → Except ε (α × δ)) :
    InTransaction (Conn.exec down statement) (fun d a d' => statement d = .ok (a, d')) := by
  intro c d h
  rcases fault_cases down c with ⟨rest, hf⟩ | ⟨rest, hf⟩
  · refine .inr ⟨down, { c with faults := rest }, d, ?_, h, rfl⟩
    simp only [Conn.exec, Call.bind_apply, hf]
  · cases hs : statement d with
    | error e =>
      refine .inr ⟨e, { c with faults := rest }, d, ?_, h, rfl⟩
      simp only [Conn.exec, Call.bind_apply, hf, statementCall, view, h, Option.getD_some, hs]
    | ok r =>
      obtain ⟨a, d'⟩ := r
      refine .inl ⟨a, { c with working := some d', faults := rest }, d', ?_, rfl, rfl, hs⟩
      simp only [Conn.exec, Call.bind_apply, hf, statementCall, view, h, Option.getD_some, hs, write]

theorem bind {x : Call ε (Conn δ) α} {f : α → Call ε (Conn δ) β} {Q : δ → α → δ → Prop}
    {R : α → δ → β → δ → Prop} (hx : InTransaction x Q) (hf : ∀ a, InTransaction (f a) (R a)) :
    InTransaction (x >>= f) (fun d b d'' => ∃ a d', Q d a d' ∧ R a d' b d'') := by
  intro c d h
  rw [Call.bind_apply]
  rcases hx c d h with ⟨a, c', d', he, hw, hc, hQ⟩ | ⟨e, c', d', he, hw, hc⟩
  · simp only [he]
    rcases hf a c' d' hw with ⟨b, c'', d'', he', hw', hc', hR⟩ | ⟨e, c'', d'', he', hw', hc'⟩
    · exact .inl ⟨b, c'', d'', he', hw', hc'.trans hc, a, d', hQ, hR⟩
    · exact .inr ⟨e, c'', d'', he', hw', hc'.trans hc⟩
  · simp only [he]
    exact .inr ⟨e, c', d', rfl, hw, hc⟩

theorem mono {x : Call ε (Conn δ) α} {Q R : δ → α → δ → Prop} (hx : InTransaction x Q)
    (h : ∀ d a d', Q d a d' → R d a d') : InTransaction x R := by
  intro c d hw
  rcases hx c d hw with ⟨a, c', d', he, hw', hc, hQ⟩ | herr
  · exact .inl ⟨a, c', d', he, hw', hc, h d a d' hQ⟩
  · exact .inr herr

end InTransaction

/-! ### Whole methods -/

/-- A method that commits all it did or nothing of it, and leaves no transaction
open. -/
def Atomic (x : Call ε (Conn δ) α) (Q : δ → α → δ → Prop) : Prop :=
  ∀ c : Conn δ, c.working = none →
    (∃ a c', x c = .ok a c' ∧ c'.working = none ∧ Q c.committed a c'.committed) ∨
      ∃ e c', x c = .error e c' ∧ c'.working = none ∧ c'.committed = c.committed

theorem Atomic.mono {x : Call ε (Conn δ) α} {Q R : δ → α → δ → Prop} (hx : Atomic x Q)
    (h : ∀ d a d', Q d a d' → R d a d') : Atomic x R := by
  intro c hw
  rcases hx c hw with ⟨a, c', he, hw', hQ⟩ | herr
  · exact .inl ⟨a, c', he, hw', h _ a _ hQ⟩
  · exact .inr herr

theorem Atomic.map {x : Call ε (Conn δ) α} {Q : δ → α → δ → Prop} (hx : Atomic x Q) (f : α → β) :
    Atomic (f <$> x : Call ε (Conn δ) β) (fun d b d' => ∃ a, b = f a ∧ Q d a d') := by
  intro c hw
  rw [Call.map_apply]
  rcases hx c hw with ⟨a, c', he, hw', hQ⟩ | ⟨e, c', he, hw', hc⟩
  · simp only [he]
    exact .inl ⟨f a, c', rfl, hw', a, rfl, hQ⟩
  · simp only [he]
    exact .inr ⟨e, c', rfl, hw', hc⟩

theorem Atomic.working_after {x : Call ε (Conn δ) α} {Q : δ → α → δ → Prop} (hx : Atomic x Q)
    {c : Conn δ} (h : c.working = none) : (x.after c).working = none := by
  rcases hx c h with ⟨a, c', he, hw, _⟩ | ⟨e, c', he, hw, _⟩
  · rw [(Call.outcome_ok he).2]
    exact hw
  · rw [(Call.outcome_error he).2]
    exact hw

/-- A single statement outside a transaction. -/
theorem exec_atomic (down : ε) (statement : δ → Except ε (α × δ)) :
    Atomic (exec down statement) (fun d a d' => statement d = .ok (a, d')) := by
  intro c h
  rcases fault_cases down c with ⟨rest, hf⟩ | ⟨rest, hf⟩
  · refine .inr ⟨down, { c with faults := rest }, ?_, h, rfl⟩
    simp only [exec, Call.bind_apply, hf]
  · cases hs : statement c.committed with
    | error e =>
      refine .inr ⟨e, { c with faults := rest }, ?_, h, rfl⟩
      simp only [exec, Call.bind_apply, hf, statementCall, view, h, Option.getD_none, hs]
    | ok r =>
      obtain ⟨a, d'⟩ := r
      refine .inl ⟨a, { c with committed := d', faults := rest }, ?_, h, hs⟩
      simp only [exec, Call.bind_apply, hf, statementCall, view, h, Option.getD_none, hs, write]

/-- What a closing body leaves committed. -/
def Closes (Q : δ → Close α → δ → Prop) (d : δ) (a : α) (d' : δ) : Prop :=
  Q d (.commit a) d' ∨ (∃ d'', Q d (.rollback a) d'') ∧ d' = d

/-- Closing an open transaction either ends it or leaves it open and untouched. -/
theorem close_cases (down : ε) (r : Close α) (c : Conn δ) (d : δ) (h : c.working = some d) :
    (∃ c', close down r c = .error down c' ∧ c'.working = some d ∧ c'.committed = c.committed) ∨
      ∃ a c', close down r c = .ok a c' ∧ c'.working = none ∧
        (r = .commit a ∧ c'.committed = d ∨ r = .rollback a ∧ c'.committed = c.committed) := by
  cases r with
  | rollback a =>
    refine .inr ⟨a, { c with working := none }, ?_, rfl, .inr ⟨rfl, rfl⟩⟩
    simp only [close, Call.bind_apply, rollback, h, Call.pure_apply]
  | commit a =>
    rcases fault_cases down c with ⟨rest, hf⟩ | ⟨rest, hf⟩
    · refine .inl ⟨{ c with faults := rest }, ?_, h, rfl⟩
      simp only [close, commit, Call.bind_apply, hf]
    · refine .inr ⟨a, { c with committed := d, working := none, faults := rest }, ?_, rfl,
        .inl ⟨rfl, rfl⟩⟩
      simp only [close, commit, Call.bind_apply, hf, commitCall, h, Call.pure_apply]

/-- The part after the begin: body and close. -/
theorem body_cases {body : Call ε (Conn δ) (Close α)} {Q : δ → Close α → δ → Prop}
    (hbody : InTransaction body Q) (down : ε) (c : Conn δ) (d : δ) (h : c.working = some d) :
    (∃ e c' d', (body >>= close down) c = .error e c' ∧ c'.working = some d' ∧
        c'.committed = c.committed) ∨
      ∃ a c', (body >>= close down) c = .ok a c' ∧ c'.working = none ∧
        (Q d (.commit a) c'.committed ∨
          (∃ d'', Q d (.rollback a) d'') ∧ c'.committed = c.committed) := by
  rw [Call.bind_apply]
  rcases hbody c d h with ⟨r, c', d', hr, hw, hc, hQ⟩ | ⟨e, c', d', hr, hw, hc⟩
  · simp only [hr]
    rcases close_cases down r c' d' hw with ⟨c'', he, hw', hc'⟩ | ⟨a, c'', he, hw', hc'⟩
    · exact .inl ⟨down, c'', d', he, hw', hc'.trans hc⟩
    · refine .inr ⟨a, c'', he, hw', ?_⟩
      rcases hc' with ⟨rfl, hd⟩ | ⟨rfl, hd⟩
      · exact .inl (hd ▸ hQ)
      · exact .inr ⟨⟨d', hQ⟩, hd.trans hc⟩
  · simp only [hr]
    exact .inl ⟨e, c', d', rfl, hw, hc⟩

/-- Beginning on an idle connection opens a transaction on the committed
database, or fails and changes nothing but the schedule of faults. -/
theorem begin_cases (down : ε) (c : Conn δ) (h : c.working = none) :
    (∃ rest, (begin down : Call ε (Conn δ) Unit) c = .error down { c with faults := rest }) ∨
      ∃ rest, (begin down : Call ε (Conn δ) Unit) c =
        .ok () { c with working := some c.committed, faults := rest } := by
  rcases fault_cases down c with ⟨rest, hf⟩ | ⟨rest, hf⟩
  · exact .inl ⟨rest, by simp only [begin, Call.bind_apply, hf]⟩
  · exact .inr ⟨rest, by simp only [begin, Call.bind_apply, hf, openCall, h]⟩

/-- Undoing an open transaction closes it. -/
theorem undo_open (down : ε) (quiet : Bool) {c : Conn δ} {d : δ} (h : c.working = some d) :
    (undo down quiet : Call ε (Conn δ) Unit) c = .ok () { c with working := none } := by
  cases quiet
  · simp only [undo, Bool.false_eq_true, if_false, rollback, h]
  · simp only [undo, if_true, Call.suppress, Call.tryCatch_apply, rollback, h]

/-- A quiet undo of nothing does nothing. -/
theorem undo_quiet (down : ε) {c : Conn δ} (h : c.working = none) :
    (undo down true : Call ε (Conn δ) Unit) c = .ok () c := by
  simp only [undo, if_true, Call.suppress, Call.tryCatch_apply, rollback, h, Call.pure_apply]

/-- **A transaction is atomic**, wherever a statement of it fails. -/
theorem transaction_atomic {body : Call ε (Conn δ) (Close α)} {Q : δ → Close α → δ → Prop}
    (hbody : InTransaction body Q) (down : ε) (quiet : Bool) :
    Atomic (transaction down quiet body) (Closes Q) := by
  intro c h
  rcases begin_cases down c h with ⟨rest, hb⟩ | ⟨rest, hb⟩
  · refine .inr ⟨down, { c with faults := rest }, ?_, h, rfl⟩
    simp only [transaction, Call.bind_apply, hb]
  · rcases body_cases hbody down { c with working := some c.committed, faults := rest }
      c.committed rfl with ⟨e, c', d', he, hw, hc⟩ | ⟨a, c', he, hw, hc⟩
    · refine .inr ⟨e, { c' with working := none }, ?_, rfl, hc⟩
      rw [transaction, Call.bind_apply, hb]
      simp only [Call.tryCatch_apply, he, Call.bind_apply, undo_open down quiet hw, Call.throw_apply]
    · refine .inl ⟨a, c', ?_, hw, hc⟩
      rw [transaction, Call.bind_apply, hb]
      simp only [Call.tryCatch_apply, he]

theorem guardedTransaction_atomic {body : Call ε (Conn δ) (Close α)} {Q : δ → Close α → δ → Prop}
    (hbody : InTransaction body Q) (down : ε) :
    Atomic (guardedTransaction down body) (Closes Q) := by
  intro c h
  rcases begin_cases down c h with ⟨rest, hb⟩ | ⟨rest, hb⟩
  · -- The begin itself failed: the rollback that follows has nothing to undo.
    refine .inr ⟨down, { c with faults := rest }, ?_, h, rfl⟩
    have hundo := undo_quiet down (c := { c with faults := rest }) h
    simp only [guardedTransaction, Call.tryCatch_apply, Call.bind_apply, hb, hundo, Call.throw_apply]
  · rcases body_cases hbody down { c with working := some c.committed, faults := rest }
      c.committed rfl with ⟨e, c', d', he, hw, hc⟩ | ⟨a, c', he, hw, hc⟩
    · refine .inr ⟨e, { c' with working := none }, ?_, rfl, hc⟩
      rw [guardedTransaction, Call.tryCatch_apply, Call.bind_apply, hb]
      simp only [he, Call.bind_apply, undo_open down true hw, Call.throw_apply]
    · refine .inl ⟨a, c', ?_, hw, hc⟩
      rw [guardedTransaction, Call.tryCatch_apply, Call.bind_apply, hb]
      simp only [he]

/-! ### Connections without faults -/

theorem exec_idle (down : ε) (statement : δ → Except ε (α × δ)) (d : δ) :
    exec down statement (idle d []) = match statement d with
      | .ok (a, d') => .ok a (idle d' [])
      | .error e => .error e (idle d []) := by
  simp only [exec, Call.bind_apply, fault, idle, statementCall, view, Option.getD_none, write]

theorem exec_open (down : ε) (statement : δ → Except ε (α × δ)) (d₀ d : δ) :
    exec down statement ⟨d₀, some d, []⟩ = match statement d with
      | .ok (a, d') => .ok a ⟨d₀, some d', []⟩
      | .error e => .error e ⟨d₀, some d, []⟩ := by
  simp only [exec, Call.bind_apply, fault, statementCall, view, Option.getD_some, write]

theorem begin_idle (down : ε) (d : δ) :
    (begin down : Call ε (Conn δ) Unit) (idle d []) = .ok () ⟨d, some d, []⟩ := rfl

theorem close_open (down : ε) (r : Close α) (d₀ d : δ) :
    close down r ⟨d₀, some d, []⟩ = match r with
      | .commit a => .ok a (idle d [])
      | .rollback a => .ok a (idle d₀ []) := by
  cases r <;> rfl

/-- Without faults a transaction commits or undoes what its body did. -/
theorem transaction_idle {body : Call ε (Conn δ) (Close α)} (down : ε) (quiet : Bool) {d d' : δ}
    {r : Close α} (h : body ⟨d, some d, []⟩ = .ok r ⟨d, some d', []⟩) :
    transaction down quiet body (idle d []) = match r with
      | .commit a => .ok a (idle d' [])
      | .rollback a => .ok a (idle d []) := by
  rw [transaction, Call.bind_apply, begin_idle]
  simp only [Call.tryCatch_apply, Call.bind_apply, h, close_open]
  cases r <;> rfl

theorem transaction_idle_error {body : Call ε (Conn δ) (Close α)} (down : ε) (quiet : Bool)
    {d d' : δ} {e : ε} (h : body ⟨d, some d, []⟩ = .error e ⟨d, some d', []⟩) :
    transaction down quiet body (idle d []) = .error e (idle d []) := by
  have hundo := undo_open down quiet (c := ⟨d, some d', []⟩) rfl
  rw [transaction, Call.bind_apply, begin_idle]
  simp only [Call.tryCatch_apply, Call.bind_apply, h, hundo, Call.throw_apply, idle]

theorem guardedTransaction_idle {body : Call ε (Conn δ) (Close α)} (down : ε) {d d' : δ}
    {r : Close α} (h : body ⟨d, some d, []⟩ = .ok r ⟨d, some d', []⟩) :
    guardedTransaction down body (idle d []) = match r with
      | .commit a => .ok a (idle d' [])
      | .rollback a => .ok a (idle d []) := by
  rw [guardedTransaction, Call.tryCatch_apply, Call.bind_apply, begin_idle]
  simp only [Call.bind_apply, h, close_open]
  cases r <;> rfl

theorem guardedTransaction_idle_error {body : Call ε (Conn δ) (Close α)} (down : ε) {d d' : δ}
    {e : ε} (h : body ⟨d, some d, []⟩ = .error e ⟨d, some d', []⟩) :
    guardedTransaction down body (idle d []) = .error e (idle d []) := by
  have hundo := undo_open down true (c := ⟨d, some d', []⟩) rfl
  rw [guardedTransaction, Call.tryCatch_apply, Call.bind_apply, begin_idle]
  simp only [Call.bind_apply, h, hundo, Call.throw_apply, idle]

end Conn
end AgentKernel.Lib
