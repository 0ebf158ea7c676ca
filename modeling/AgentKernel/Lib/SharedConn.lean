import Mathlib.Data.List.Induction
import Mathlib.Logic.Function.Basic
import AgentKernel.Lib.Run
import AgentKernel.Lib.Transaction

/-! One connection under several users.

Each user runs one method at a time, statement by statement (`Script`), and the statements of
the users interleave as they like. A connection has one transaction for all of them: a write
opens it if nobody has, and whoever commits or rolls back does so to everybody's writes.

The `trace` is what became of the transaction: the writes in order, each commit, each rollback.
A user whose methods write a part of the database that no other writes (`Part`) is verified
alone (`Script.Sound`). `answers_told` carries this to every run: what a method that has
returned leaves of its writes is what the trace leaves of them (`kept`), those whose
transaction was ended by a commit. -/
namespace AgentKernel.Lib

/-- What a method has still to do on the connection. Every statement may fail, and the method
goes on from the error. -/
inductive Script (ε δ ω α : Type) where
  | done (result : Except ε α)
  /-- An explicit `BEGIN`. -/
  | begin (next : Option ε → Script ε δ ω α)
  /-- What it writes, and of that what the trace shows; one that `writes` opens a transaction. -/
  | statement (writes : Bool) (run : δ → Except ε δ) (wrote : List ω)
      (next : δ → Option ε → Script ε δ ω α)
  /-- A lenient end without a transaction is no error. -/
  | commit (lenient : Bool) (next : Option ε → Script ε δ ω α)
  | rollback (lenient : Bool) (next : Option ε → Script ε δ ω α)

/-- What happens to the transaction of the connection. -/
inductive TxEvent (ω : Type) where
  | wrote (w : ω)
  | committed
  | rolledBack
  deriving DecidableEq, Repr

namespace Script
variable {ε δ ω α β : Type}

/-- Execute a statement and go on with its value. -/
def exec (writes : Bool) (statement : δ → Except ε (β × δ)) (wrote : List ω)
    (next : Except ε β → Script ε δ ω α) : Script ε δ ω α :=
  .statement writes (fun d => (statement d).map Prod.snd) wrote (fun d failed =>
    match failed with
    | some e => next (.error e)
    | none => next ((statement d).map Prod.fst))

/-- The step a script takes: what is left of it, the connection and what happened. -/
structure Taken (ε δ ω α : Type) where
  script : Script ε δ ω α
  conn : Conn δ
  events : List (TxEvent ω) := []

/-- The connection with its transaction open. -/
def opened (c : Conn δ) : Conn δ := { c with working := some c.view }

def runStatement (c : Conn δ) (writes : Bool) (wrote : List ω) (next : δ → Option ε → Script ε δ ω α) :
    Except ε δ → Taken ε δ ω α
  | .error e => ⟨next c.view (some e), if writes then opened c else c, []⟩
  | .ok d => ⟨next c.view none, if writes then { c with working := some d } else c, wrote.map .wrote⟩

/-- What the connection raises of its own: at a begin inside a transaction, at an end outside
of one. -/
structure TxErrors (ε : Type) where
  nested : ε
  noCommit : ε
  noRollback : ε

def runBegin (nested : ε) (c : Conn δ) (next : Option ε → Script ε δ ω α) :
    Option ε → Taken ε δ ω α
  | some e => ⟨next (some e), c, []⟩
  | none =>
    match c.working with
    | some _ => ⟨next (some nested), c, []⟩
    | none => ⟨next none, opened c, []⟩

/-- What an end outside of a transaction raises. -/
def idleError (closed : ε) (lenient : Bool) : Option ε := if lenient then none else some closed

def runCommit (closed : ε) (c : Conn δ) (fault : Option ε) (lenient : Bool)
    (next : Option ε → Script ε δ ω α) : Taken ε δ ω α :=
  match c.working with
  | none => ⟨next (idleError closed lenient), c, []⟩
  | some d =>
    match fault with
    | some e => ⟨next (some e), c, []⟩
    | none => ⟨next none, { c with committed := d, working := none }, [.committed]⟩

def runRollback (closed : ε) (c : Conn δ) (lenient : Bool) (next : Option ε → Script ε δ ω α) :
    Taken ε δ ω α :=
  match c.working with
  | none => ⟨next (idleError closed lenient), c, []⟩
  | some _ => ⟨next none, { c with working := none }, [.rolledBack]⟩

/-- What a statement that may fail for reasons of its own returns. -/
def orFault (fault : Option ε) (r : Except ε δ) : Except ε δ :=
  match fault with
  | some e => .error e
  | none => r

/-- One statement; `fault` is the error it ends with for reasons of its own. -/
def step (E : TxErrors ε) (c : Conn δ) (fault : Option ε) : Script ε δ ω α → Taken ε δ ω α
  | .done r => ⟨.done r, c, []⟩
  | .begin next => runBegin E.nested c next fault
  | .statement writes run wrote next => runStatement c writes wrote next (orFault fault (run c.view))
  | .commit lenient next => runCommit E.noCommit c fault lenient next
  | .rollback lenient next => runRollback E.noRollback c lenient next

/-- The method from where it stands to its end, with nobody else on the connection and no fault. -/
def alone (E : TxErrors ε) : Script ε δ ω α → Conn δ → Except ε α × Conn δ
  | .done r, c => (r, c)
  | .begin next, c =>
    match c.working with
    | some _ => alone E (next (some E.nested)) c
    | none => alone E (next none) (opened c)
  | .statement writes run _ next, c =>
    match run c.view with
    | .error e => alone E (next c.view (some e)) (if writes then opened c else c)
    | .ok d => alone E (next c.view none) (if writes then { c with working := some d } else c)
  | .commit lenient next, c =>
    match c.working with
    | none => alone E (next (idleError E.noCommit lenient)) c
    | some d => alone E (next none) { c with committed := d, working := none }
  | .rollback lenient next, c =>
    match c.working with
    | none => alone E (next (idleError E.noRollback lenient)) c
    | some _ => alone E (next none) { c with working := none }

/-- Alone, a method takes the same steps. -/
theorem alone_step (E : TxErrors ε) (s : Script ε δ ω α) (c : Conn δ) :
    s.alone E c = (s.step E c none).script.alone E (s.step E c none).conn := by
  cases s with
  | done r => rfl
  | begin next =>
    simp only [alone, step, runBegin]
    cases c.working <;> rfl
  | statement writes run wrote next =>
    simp only [alone, step, orFault]
    cases run c.view <;> rfl
  | commit lenient next =>
    simp only [alone, step, runCommit]
    cases c.working <;> rfl
  | rollback lenient next =>
    simp only [alone, step, runRollback]
    cases c.working <;> rfl

/-- What follows a statement that returns a value, alone. -/
def aloneAfter (E : TxErrors ε) (writes : Bool) (next : Except ε β → Script ε δ ω α) (c : Conn δ) :
    Except ε (β × δ) → Except ε α × Conn δ
  | .error e => (next (.error e)).alone E (if writes then opened c else c)
  | .ok r => (next (.ok r.1)).alone E (if writes then { c with working := some r.2 } else c)

theorem alone_exec (E : TxErrors ε) (writes : Bool) (statement : δ → Except ε (β × δ)) (wrote : List ω)
    (next : Except ε β → Script ε δ ω α) (c : Conn δ) :
    (exec writes statement wrote next).alone E c = aloneAfter E writes next c (statement c.view) := by
  simp only [exec, alone]
  cases statement c.view with
  | error e => rfl
  | ok r => rfl

end Script

/-! ### Users of a connection -/

/-- A method under way, and how long the trace was when it began. -/
structure Active (ε δ ω γ α : Type) where
  call : γ
  began : Nat
  script : Script ε δ ω α

/-- A method that has ended: the piece of the trace it ran beside, and its result. -/
structure Answer (ε γ α : Type) where
  call : γ
  began : Nat
  upto : Nat
  result : Except ε α

structure SharedConn (ι ε δ ω γ α : Type) where
  conn : Conn δ
  trace : List (TxEvent ω)
  active : ι → Option (Active ε δ ω γ α)
  answers : List (Answer ε γ α)

inductive SharedStep (ι ε γ : Type) where
  /-- A method is called; while its user is inside another one it waits for the lock. -/
  | call (call : γ)
  /-- The user's next statement, and whether it fails for reasons of its own. -/
  | step (i : ι) (fault : Option ε)

namespace SharedConn
variable {ι ε δ ω γ α : Type} [DecidableEq ι]

def init (d : δ) : SharedConn ι ε δ ω γ α := ⟨.idle d [], [], fun _ => none, []⟩

/-- The method of a user has come to a point: it goes on from there or returns. -/
def settle (s : SharedConn ι ε δ ω γ α) (i : ι) (o : Active ε δ ω γ α) : SharedConn ι ε δ ω γ α :=
  match o.script with
  | .done r =>
    { s with
      active := Function.update s.active i none
      answers := s.answers ++ [⟨o.call, o.began, s.trace.length, r⟩] }
  | _ => { s with active := Function.update s.active i (some o) }

def take (s : SharedConn ι ε δ ω γ α) (t : Script.Taken ε δ ω α) : SharedConn ι ε δ ω γ α :=
  { s with conn := t.conn, trace := s.trace ++ t.events }

/-- The next statement of a method under way. -/
def advance (E : Script.TxErrors ε) (s : SharedConn ι ε δ ω γ α) (i : ι) (fault : Option ε)
    (o : Active ε δ ω γ α) : SharedConn ι ε δ ω γ α :=
  let t := o.script.step E s.conn fault
  (s.take t).settle i { o with script := t.script }

/-- Each method has a user, whose lock it takes. -/
def next (E : Script.TxErrors ε) (owner : γ → ι) (program : γ → Script ε δ ω α)
    (s : SharedConn ι ε δ ω γ α) : SharedStep ι ε γ → SharedConn ι ε δ ω γ α
  | .call call =>
    if (s.active (owner call)).isSome then s
    else s.settle (owner call) ⟨call, s.trace.length, program call⟩
  | .step i fault => ((s.active i).map (s.advance E i fault)).getD s

variable (E : Script.TxErrors ε) (owner : γ → ι) (program : γ → Script ε δ ω α)

/-- The user's steps alone, after which its method has ended as it does alone. -/
def Ends (s : SharedConn ι ε δ ω γ α) (i : ι) (o : Active ε δ ω γ α) (c : Conn δ)
    (answers : List (Answer ε γ α)) : Prop :=
  ∃ n, (run (next E owner program) s (List.replicate n (.step i none))).conn = (o.script.alone E c).2 ∧
    ∃ upto, (run (next E owner program) s (List.replicate n (.step i none))).answers =
      answers ++ [⟨o.call, o.began, upto, (o.script.alone E c).1⟩]

variable {E owner program}

theorem settle_done {s : SharedConn ι ε δ ω γ α} {i : ι} {o : Active ε δ ω γ α} {r : Except ε α}
    (h : o.script = .done r) : s.settle i o =
      { s with
        active := Function.update s.active i none
        answers := s.answers ++ [⟨o.call, o.began, s.trace.length, r⟩] } := by
  simp only [settle, h]

theorem settle_going {s : SharedConn ι ε δ ω γ α} {i : ι} {o : Active ε δ ω γ α}
    (h : ∀ r, o.script ≠ .done r) :
    s.settle i o = { s with active := Function.update s.active i (some o) } := by
  unfold settle
  split
  · rename_i r hr
    exact absurd hr (h r)
  · rfl

/-- It ends from where it stands if it does after a step. -/
theorem ends_of_step {s : SharedConn ι ε δ ω γ α} {i : ι} {o : Active ε δ ω γ α}
    (hgoing : ∀ r, o.script ≠ .done r)
    (h : Ends E owner program ((s.take (o.script.step E s.conn none)).settle i
        { o with script := (o.script.step E s.conn none).script }) i
      { o with script := (o.script.step E s.conn none).script } (o.script.step E s.conn none).conn s.answers) :
    Ends E owner program (s.settle i o) i o s.conn s.answers := by
  obtain ⟨n, hconn, upto, hanswers⟩ := h
  have hnext : next E owner program (s.settle i o) (.step i none) =
      (s.take (o.script.step E s.conn none)).settle i
        { o with script := (o.script.step E s.conn none).script } := by
    rw [settle_going hgoing]
    simp only [next, advance, Function.update_self, Option.map_some, Option.getD_some, take, settle,
      Function.update_idem]
  refine ⟨n + 1, ?_, upto, ?_⟩
  · rw [List.replicate_succ, run_cons, hnext, hconn, ← Script.alone_step]
  · rw [List.replicate_succ, run_cons, hnext, hanswers, ← Script.alone_step]

/-- A method that is left alone comes to its end. -/
theorem settle_ends (script : Script ε δ ω α) (s : SharedConn ι ε δ ω γ α) (i : ι)
    (o : Active ε δ ω γ α) (ho : o.script = script) :
    Ends E owner program (s.settle i o) i o s.conn s.answers := by
  induction script generalizing s o with
  | done r =>
    refine ⟨0, ?_, s.trace.length, ?_⟩
    · rw [settle_done ho, ho]
      rfl
    · rw [settle_done ho, ho]
      rfl
  | begin next' ih =>
    obtain ⟨r, hr⟩ : ∃ r, (o.script.step E s.conn none).script = next' r := by
      simp only [ho, Script.step, Script.runBegin]
      cases s.conn.working with
      | none => exact ⟨_, rfl⟩
      | some d => exact ⟨_, rfl⟩
    exact ends_of_step (by simp [ho]) (ih r (s.take _) _ hr)
  | statement writes run' wrote next' ih =>
    obtain ⟨r, hr⟩ : ∃ r, (o.script.step E s.conn none).script = next' s.conn.view r := by
      simp only [ho, Script.step, Script.orFault]
      cases run' s.conn.view with
      | error e => exact ⟨_, rfl⟩
      | ok d => exact ⟨_, rfl⟩
    exact ends_of_step (by simp [ho]) (ih s.conn.view r (s.take _) _ hr)
  | commit lenient next' ih =>
    obtain ⟨r, hr⟩ : ∃ r, (o.script.step E s.conn none).script = next' r := by
      simp only [ho, Script.step, Script.runCommit]
      cases s.conn.working with
      | none => exact ⟨_, rfl⟩
      | some d => exact ⟨_, rfl⟩
    exact ends_of_step (by simp [ho]) (ih r (s.take _) _ hr)
  | rollback lenient next' ih =>
    obtain ⟨r, hr⟩ : ∃ r, (o.script.step E s.conn none).script = next' r := by
      simp only [ho, Script.step, Script.runRollback]
      cases s.conn.working with
      | none => exact ⟨_, rfl⟩
      | some d => exact ⟨_, rfl⟩
    exact ends_of_step (by simp [ho]) (ih r (s.take _) _ hr)

variable (E program) in
/-- A method that is called while nobody uses its lock, and left alone, ends as it does alone. -/
theorem call_ends {s : SharedConn ι ε δ ω γ α} {call : γ} (h : s.active (owner call) = none) :
    Ends E owner program (s.next E owner program (.call call)) (owner call)
      ⟨call, s.trace.length, program call⟩ s.conn s.answers := by
  simp only [next, h, Option.isSome_none, Bool.false_eq_true, if_false]
  exact settle_ends (program call) s (owner call) _ rfl

end SharedConn

/-! ### What is left of the writes -/

/-- A part of the database, and what the writes of it that the trace shows make of it. -/
structure Part (δ ω τ ρ : Type) where
  of : δ → τ
  pick : ω → Option ρ
  put : τ → ρ → τ

namespace Part
variable {δ ω τ ρ : Type} (P : Part δ ω τ ρ)

/-- The writes that were committed and those that are still pending. -/
structure Kept (ρ : Type) where
  durable : List ρ := []
  pending : List ρ := []

def Kept.next (k : Kept ρ) : Option ρ → Kept ρ
  | some r => { k with pending := k.pending ++ [r] }
  | none => k

/-- A commit keeps what is pending, a rollback drops it. -/
def keep (k : Kept ρ) : TxEvent ω → Kept ρ
  | .wrote w => k.next (P.pick w)
  | .committed => ⟨k.durable ++ k.pending, []⟩
  | .rolledBack => ⟨k.durable, []⟩

def kept (trace : List (TxEvent ω)) : Kept ρ := run P.keep {} trace

/-- The writes of the part, whatever became of them. -/
def writes (trace : List (TxEvent ω)) : List ρ :=
  trace.filterMap (fun
    | .wrote w => P.pick w
    | _ => none)

/-- A rollback found writes of the part pending. -/
def Struck (trace : List (TxEvent ω)) : Prop :=
  ∃ before after, trace = before ++ .rolledBack :: after ∧ (P.kept before).pending ≠ []

/-- The part as the trace leaves it: committed, and as the connection sees it. -/
def after (t : τ) (trace : List (TxEvent ω)) : τ := (P.kept trace).durable.foldl P.put t

def seen (t : τ) (trace : List (TxEvent ω)) : τ := (P.kept trace).pending.foldl P.put (P.after t trace)

theorem kept_append (a b : List (TxEvent ω)) : P.kept (a ++ b) = run P.keep (P.kept a) b :=
  run_append P.keep {} a b

@[simp] theorem writes_nil : P.writes [] = [] := rfl

theorem writes_append (a b : List (TxEvent ω)) : P.writes (a ++ b) = P.writes a ++ P.writes b :=
  List.filterMap_append

theorem writes_wrote (ws : List ω) : P.writes (ws.map .wrote) = ws.filterMap P.pick := by
  simp [writes, List.filterMap_map]

/-- Writes are pending at first. -/
theorem run_keep_wrote (k : Kept ρ) (ws : List ω) :
    run P.keep k (ws.map .wrote) = ⟨k.durable, k.pending ++ ws.filterMap P.pick⟩ := by
  induction ws generalizing k with
  | nil => simp
  | cons w rest ih =>
    rw [List.map_cons, run_cons, ih]
    cases hw : P.pick w with
    | none => simp [keep, Kept.next, hw]
    | some r => simp [keep, Kept.next, hw]

/-- From any start the rest of a trace adds to what was kept before. -/
theorem run_keep_durable (k : Kept ρ) (trace : List (TxEvent ω)) (h : k.pending = []) :
    run P.keep k trace = ⟨k.durable ++ (P.kept trace).durable, (P.kept trace).pending⟩ := by
  suffices hall : ∀ (k' : Kept ρ), run P.keep ⟨k.durable ++ k'.durable, k'.pending⟩ trace =
      ⟨k.durable ++ (run P.keep k' trace).durable, (run P.keep k' trace).pending⟩ by
    have hk : k = ⟨k.durable ++ [], []⟩ := by
      rw [List.append_nil, ← h]
    rw [hk]
    simpa [kept] using hall {}
  induction trace with
  | nil => exact fun _ => rfl
  | cons e rest ih =>
    intro k'
    rw [run_cons, run_cons, ← ih]
    cases e with
    | wrote w =>
      cases hw : P.pick w <;> simp [keep, Kept.next, hw]
    | committed => simp [keep]
    | rolledBack => simp [keep]

/-- A method that starts with nothing pending is told by its own piece of the trace. -/
theorem kept_append_of_idle {a : List (TxEvent ω)} (h : (P.kept a).pending = [])
    (b : List (TxEvent ω)) :
    P.kept (a ++ b) = ⟨(P.kept a).durable ++ (P.kept b).durable, (P.kept b).pending⟩ := by
  rw [kept_append, run_keep_durable P _ b h]

/-- What is kept was written, in the same order. -/
theorem kept_sublist (trace : List (TxEvent ω)) :
    ((P.kept trace).durable ++ (P.kept trace).pending).Sublist (P.writes trace) := by
  induction trace using List.reverseRecOn with
  | nil => exact List.Sublist.refl _
  | append_singleton trace e ih =>
    rw [kept_append, writes_append, run_cons, run_nil]
    cases e with
    | wrote w =>
      cases hw : P.pick w with
      | none => simpa [keep, Kept.next, writes, hw] using ih
      | some r =>
        simp only [keep, Kept.next, hw, ← List.append_assoc]
        simpa [writes, hw] using ih.append (List.Sublist.refl [r])
    | committed => simpa [keep, writes] using ih
    | rolledBack =>
      simpa [keep, writes] using (List.sublist_append_left _ _).trans ih

/-- What was committed stays. -/
theorem durable_prefix (a b : List (TxEvent ω)) : (P.kept a).durable <+: (P.kept (a ++ b)).durable := by
  induction b using List.reverseRecOn with
  | nil => exact (List.append_nil a).symm ▸ List.prefix_rfl
  | append_singleton b e ih =>
    rw [← List.append_assoc, kept_append, run_cons, run_nil]
    cases e with
    | wrote w => cases hw : P.pick w <;> simpa [keep, Kept.next, hw] using ih
    | committed => exact ih.trans (List.prefix_append _ _)
    | rolledBack => exact ih

/-- Without writes nothing new gets pending. -/
theorem pending_of_quiet {k : Kept ρ} {trace : List (TxEvent ω)} (hquiet : P.writes trace = [])
    (h : k.pending = []) : (run P.keep k trace).pending = [] := by
  rw [run_keep_durable P k trace h]
  have hnone := P.kept_sublist trace
  rw [hquiet, List.sublist_nil] at hnone
  exact (List.append_eq_nil_iff.mp hnone).2

/-- **All of the writes are kept exactly when no rollback found any of them pending.** -/
theorem kept_all_iff (trace : List (TxEvent ω)) :
    (P.kept trace).durable ++ (P.kept trace).pending = P.writes trace ↔ ¬ P.Struck trace := by
  induction trace using List.reverseRecOn with
  | nil =>
    refine ⟨?_, fun _ => rfl⟩
    rintro - ⟨before, after, h, -⟩
    simp at h
  | append_singleton trace e ih =>
    have hstruck : P.Struck (trace ++ [e]) ↔
        P.Struck trace ∨ e = .rolledBack ∧ (P.kept trace).pending ≠ [] := by
      constructor
      · rintro ⟨before, after, h, hpending⟩
        rcases List.eq_nil_or_concat after with rfl | ⟨after, last, rfl⟩
        · obtain ⟨rfl, he⟩ := List.append_inj' h rfl
          exact .inr ⟨List.singleton_inj.mp he, hpending⟩
        · have h' : trace ++ [e] = (before ++ .rolledBack :: after) ++ [last] := by simpa using h
          exact .inl ⟨before, after, (List.append_inj' h' rfl).1, hpending⟩
      · rintro (⟨before, after, rfl, hpending⟩ | ⟨rfl, hpending⟩)
        · exact ⟨before, after ++ [e], by simp, hpending⟩
        · exact ⟨trace, [], rfl, hpending⟩
    rw [hstruck, not_or, ← ih, kept_append, writes_append, run_cons, run_nil]
    cases e with
    | wrote w =>
      cases hw : P.pick w <;> simp [keep, Kept.next, writes, hw, ← List.append_assoc]
    | committed => simp [keep, writes]
    | rolledBack =>
      have hlen := (P.kept_sublist trace).length_le
      simp only [List.length_append] at hlen
      constructor
      · intro h
        have hdurable : (P.kept trace).durable = P.writes trace := by simpa [keep, writes] using h
        have hnone : (P.kept trace).pending = [] := by
          rw [← List.length_eq_zero_iff]
          rw [hdurable] at hlen
          omega
        exact ⟨by rw [hdurable, hnone, List.append_nil], fun hp => hp.2 hnone⟩
      · rintro ⟨hall, hp⟩
        have hnone : (P.kept trace).pending = [] := by
          by_contra hne
          exact hp ⟨rfl, hne⟩
        rw [hnone, List.append_nil] at hall
        simpa [keep, writes] using hall

/-- Where nothing is left pending, all of the writes are durable or one was struck. -/
theorem durable_eq_iff {trace : List (TxEvent ω)} (h : (P.kept trace).pending = []) :
    (P.kept trace).durable = P.writes trace ↔ ¬ P.Struck trace := by
  rw [← P.kept_all_iff, h, List.append_nil]

end Part

/-! ### A method alone -/

namespace Script
variable {ε δ ω α β τ ρ : Type} (P : Part δ ω τ ρ)

/-- What the trace shows of a statement is what it does to the part. -/
def Tells (writes : Bool) (run : δ → Except ε δ) (wrote : List ω) (d : δ) : Prop :=
  ∀ d', run d = .ok d' → P.of d' = (wrote.filterMap P.pick).foldl P.put (P.of d) ∧
    (writes = false → wrote.filterMap P.pick = [])

/-- The method, wherever it stands, returns as it should: `ws` it has written, and unless it is
`dirty` none of that is pending. As long as it has written nothing it finds the part as it was
when it began. -/
def Sound (base : τ) (Q : List ρ → Except ε α → Prop) : Script ε δ ω α → List ρ → Bool → Prop
  | .done r, ws, dirty => dirty = false ∧ Q ws r
  | .begin next, ws, dirty => (∀ e, Sound base Q (next (some e)) ws dirty) ∧ Sound base Q (next none) ws false
  | .statement writes run wrote next, ws, dirty => ∀ d, (ws = [] → P.of d = base) →
      Tells P writes run wrote d ∧ (∀ e, Sound base Q (next d (some e)) ws dirty) ∧
        ∀ d', run d = .ok d' → Sound base Q (next d none) (ws ++ wrote.filterMap P.pick)
          (dirty || !(wrote.filterMap P.pick).isEmpty)
  | .commit _ next, ws, dirty => (∀ e, Sound base Q (next (some e)) ws dirty) ∧ Sound base Q (next none) ws false
  | .rollback _ next, ws, _ => ∀ r, Sound base Q (next r) ws false

/-- The method keeps its hands off the part. -/
def Foreign : Script ε δ ω α → Prop
  | .done _ => True
  | .begin next => ∀ r, Foreign (next r)
  | .statement writes run wrote next =>
      (∀ d, Tells P writes run wrote d) ∧ wrote.filterMap P.pick = [] ∧ ∀ d r, Foreign (next d r)
  | .commit _ next => ∀ r, Foreign (next r)
  | .rollback _ next => ∀ r, Foreign (next r)

variable {P}

/-- The connection holds what is kept. -/
structure Fits (P : Part δ ω τ ρ) (base : τ) (c : Conn δ) (k : Part.Kept ρ) : Prop where
  committed : P.of c.committed = k.durable.foldl P.put base
  view : P.of c.view = k.pending.foldl P.put (P.of c.committed)
  closed : c.working = none → k.pending = []

variable {base : τ} {c : Conn δ} {k : Part.Kept ρ}

/-- The statement, if that is what comes next, tells what it does. -/
def TellsNext (P : Part δ ω τ ρ) (c : Conn δ) : Script ε δ ω α → Prop
  | .statement writes run wrote _ => Tells P writes run wrote c.view
  | _ => True

theorem Fits.opened (h : Fits P base c k) : Fits P base (opened c) k where
  committed := h.committed
  view := h.view
  closed := fun hw => nomatch hw

theorem Fits.runStatement (h : Fits P base c k) {writes : Bool} {run' : δ → Except ε δ} {wrote : List ω}
    {next : δ → Option ε → Script ε δ ω α} (htells : Tells P writes run' wrote c.view)
    {r : Except ε δ} (hr : ∀ d', r = .ok d' → run' c.view = .ok d') :
    Fits P base (runStatement c writes wrote next r).conn
      (run P.keep k (runStatement c writes wrote next r).events) := by
  cases r with
  | error e =>
    show Fits P base (if writes then Script.opened c else c) k
    split
    · exact h.opened
    · exact h
  | ok d =>
    obtain ⟨hof, hquiet⟩ := htells d (hr d rfl)
    show Fits P base (if writes then { c with working := some d } else c)
      (run P.keep k (wrote.map .wrote))
    rw [Part.run_keep_wrote]
    cases writes with
    | true =>
      refine ⟨h.committed, ?_, fun hw => nomatch hw⟩
      show P.of d = _
      rw [hof, h.view, List.foldl_append]
      rfl
    | false =>
      rw [hquiet rfl, List.append_nil]
      exact h

theorem orFault_ok {fault : Option ε} {r : Except ε δ} {d : δ} (h : orFault fault r = .ok d) :
    r = .ok d := by
  cases fault with
  | some e => cases h
  | none => exact h

/-- A step leaves the connection with what is kept then. -/
theorem Fits.step (h : Fits P base c k) (E : TxErrors ε) (fault : Option ε) {s : Script ε δ ω α}
    (htells : TellsNext P c s) :
    Fits P base (s.step E c fault).conn (run P.keep k (s.step E c fault).events) := by
  cases s with
  | done r => exact h
  | begin next =>
    simp only [Script.step]
    unfold runBegin
    split
    · exact h
    · split
      · exact h
      · exact h.opened
  | statement writes run' wrote next => exact h.runStatement htells (fun _ => orFault_ok)
  | commit lenient next =>
    simp only [Script.step]
    unfold runCommit
    split
    · exact h
    · rename_i d hw
      split
      · exact h
      · have hview : P.of d = k.pending.foldl P.put (P.of c.committed) := by
          simpa [Conn.view, hw] using h.view
        refine ⟨?_, rfl, fun _ => rfl⟩
        show P.of d = (k.durable ++ k.pending).foldl P.put base
        rw [hview, h.committed, List.foldl_append]
  | rollback lenient next =>
    simp only [Script.step]
    unfold runRollback
    split
    · exact h
    · exact ⟨h.committed, rfl, fun _ => rfl⟩

section
variable {base' : τ} {Q : List ρ → Except ε α → Prop} {ws : List ρ} {dirty : Bool}

/-- What is left of a sound method after a step is sound, and `dirty` if anything is pending. -/
def Taken.Sound (P : Part δ ω τ ρ) (base : τ) (Q : List ρ → Except ε α → Prop) (ws : List ρ)
    (k : Part.Kept ρ) (t : Taken ε δ ω α) : Prop :=
  ∃ dirty, t.script.Sound P base Q (ws ++ P.writes t.events) dirty ∧
    ((run P.keep k t.events).pending ≠ [] → dirty = true)

/-- Nothing happened that the trace shows. -/
theorem Taken.sound_quiet {t : Taken ε δ ω α} (hevents : t.events = [])
    (h : t.script.Sound P base' Q ws dirty) (hdirty : k.pending ≠ [] → dirty = true) :
    t.Sound P base' Q ws k := by
  refine ⟨dirty, ?_, ?_⟩
  · rw [hevents, Part.writes_nil, List.append_nil]
    exact h
  · rw [hevents]
    exact hdirty

theorem Sound.runStatement {writes : Bool} {wrote : List ω} {next : δ → Option ε → Script ε δ ω α}
    (herr : ∀ e, (next c.view (some e)).Sound P base' Q ws dirty) {r : Except ε δ}
    (hok : ∀ d', r = .ok d' → (next c.view none).Sound P base' Q (ws ++ wrote.filterMap P.pick)
      (dirty || !(wrote.filterMap P.pick).isEmpty)) (hdirty : k.pending ≠ [] → dirty = true) :
    (runStatement c writes wrote next r).Sound P base' Q ws k := by
  cases r with
  | error e => exact Taken.sound_quiet rfl (herr e) hdirty
  | ok d =>
    refine ⟨dirty || !(wrote.filterMap P.pick).isEmpty, ?_, fun hp => ?_⟩
    · show Script.Sound P base' Q _ (ws ++ P.writes (wrote.map .wrote)) _
      rw [Part.writes_wrote]
      exact hok d rfl
    · have hp' : k.pending ++ wrote.filterMap P.pick ≠ [] := by
        simpa only [Script.runStatement, Part.run_keep_wrote] using hp
      rw [Bool.or_eq_true]
      by_cases hpending : k.pending = []
      · rw [hpending, List.nil_append] at hp'
        exact .inr (by simpa using hp')
      · exact .inl (hdirty hpending)

/-- What comes after a step of a sound method is sound. -/
theorem Sound.step {s : Script ε δ ω α} (h : s.Sound P base' Q ws dirty) (hfits : Fits P base c k)
    (hbase : ws = [] → P.of c.view = base') (hdirty : k.pending ≠ [] → dirty = true)
    (E : TxErrors ε) (fault : Option ε) : (s.step E c fault).Sound P base' Q ws k := by
  have hidle : c.working = none → k.pending ≠ [] → false = true :=
    fun hw hp => absurd (hfits.closed hw) hp
  cases s with
  | done r => exact Taken.sound_quiet rfl h hdirty
  | begin next =>
    simp only [Script.step]
    unfold runBegin
    split
    · exact Taken.sound_quiet rfl (h.1 _) hdirty
    · split
      · exact Taken.sound_quiet rfl (h.1 _) hdirty
      · rename_i hw
        exact Taken.sound_quiet rfl h.2 (hidle hw)
  | statement writes run' wrote next =>
    obtain ⟨_, herr, hok⟩ := h c.view hbase
    exact Sound.runStatement herr (fun d' hd => hok d' (orFault_ok hd)) hdirty
  | commit lenient next =>
    simp only [Script.step]
    unfold runCommit
    split
    · rename_i hw
      cases lenient with
      | true => exact Taken.sound_quiet rfl h.2 (hidle hw)
      | false => exact Taken.sound_quiet rfl (h.1 _) hdirty
    · split
      · exact Taken.sound_quiet rfl (h.1 _) hdirty
      · exact ⟨false, by simpa [Part.writes] using h.2, fun hp => absurd rfl hp⟩
  | rollback lenient next =>
    simp only [Script.step]
    unfold runRollback
    split
    · rename_i hw
      exact Taken.sound_quiet rfl (h _) (hidle hw)
    · exact ⟨false, by simpa [Part.writes] using h none, fun hp => absurd rfl hp⟩

/-- A statement that returns a value: the method is sound after either end. -/
theorem Sound.exec {writes : Bool} {statement : δ → Except ε (β × δ)} {wrote : List ω}
    {next : Except ε β → Script ε δ ω α}
    (hquiet : writes = false → wrote.filterMap P.pick = [])
    (hok : ∀ d b d', (ws = [] → P.of d = base') → statement d = .ok (b, d') →
      P.of d' = (wrote.filterMap P.pick).foldl P.put (P.of d) ∧
        (next (.ok b)).Sound P base' Q (ws ++ wrote.filterMap P.pick)
          (dirty || !(wrote.filterMap P.pick).isEmpty))
    (herr : ∀ e, (next (.error e)).Sound P base' Q ws dirty) :
    (exec writes statement wrote next).Sound P base' Q ws dirty := by
  intro d hd
  refine ⟨fun d' hrun => ⟨?_, hquiet⟩, herr, fun d' hrun => ?_⟩
  · cases hs : statement d with
    | error e => simp [hs, Except.map] at hrun
    | ok r =>
      have hr : r.2 = d' := by simpa [hs, Except.map] using hrun
      exact hr ▸ (hok d r.1 r.2 hd hs).1
  · cases hs : statement d with
    | error e => simp [hs, Except.map] at hrun
    | ok r =>
      show Script.Sound P base' Q (next ((statement d).map Prod.fst)) _ _
      rw [hs]
      exact (hok d r.1 r.2 hd hs).2

theorem Sound.tellsNext {s : Script ε δ ω α} (h : s.Sound P base' Q ws dirty)
    (hbase : ws = [] → P.of c.view = base') : TellsNext P c s := by
  cases s with
  | statement writes run' wrote next => exact (h c.view hbase).1
  | _ => exact trivial

end

theorem Foreign.exec {writes : Bool} {statement : δ → Except ε (β × δ)} {wrote : List ω}
    {next : Except ε β → Script ε δ ω α} (hpick : wrote.filterMap P.pick = [])
    (hkeep : ∀ d b d', statement d = .ok (b, d') → P.of d' = P.of d)
    (hnext : ∀ r, (next r).Foreign P) : (exec writes statement wrote next).Foreign P := by
  refine ⟨fun d d' hrun => ⟨?_, fun _ => hpick⟩, hpick, fun d r => ?_⟩
  · rw [hpick]
    cases hs : statement d with
    | error e => simp [hs, Except.map] at hrun
    | ok r =>
      have hr : r.2 = d' := by simpa [hs, Except.map] using hrun
      exact hr ▸ hkeep d r.1 r.2 hs
  · cases r with
    | none => exact hnext _
    | some e => exact hnext _

theorem Foreign.tellsNext {s : Script ε δ ω α} (h : s.Foreign P) : TellsNext P c s := by
  cases s with
  | statement writes run' wrote next => exact h.1 c.view
  | _ => exact trivial

theorem Foreign.step {s : Script ε δ ω α} (h : s.Foreign P) (E : TxErrors ε) (fault : Option ε) :
    (s.step E c fault).script.Foreign P ∧ P.writes (s.step E c fault).events = [] := by
  cases s with
  | done r => exact ⟨trivial, rfl⟩
  | begin next =>
    simp only [Script.step]
    unfold runBegin
    split
    · exact ⟨h _, rfl⟩
    · split <;> exact ⟨h _, rfl⟩
  | statement writes run' wrote next =>
    simp only [Script.step]
    cases orFault fault (run' c.view) with
    | error e => exact ⟨h.2.2 _ _, rfl⟩
    | ok d => exact ⟨h.2.2 _ _, by rw [runStatement, Part.writes_wrote, h.2.1]⟩
  | commit lenient next =>
    simp only [Script.step]
    unfold runCommit
    split
    · exact ⟨h _, rfl⟩
    · split <;> exact ⟨h _, rfl⟩
  | rollback lenient next =>
    simp only [Script.step]
    unfold runRollback
    split <;> exact ⟨h _, rfl⟩

end Script

/-! ### Every run -/

namespace SharedConn
variable {ι ε δ ω γ α τ ρ : Type} [DecidableEq ι] (P : Part δ ω τ ρ) (owner : γ → ι) (user : ι)
  (Q : γ → τ → List ρ → Except ε α → Prop) (base : τ)

/-- The piece of the trace a method ran beside. -/
def during (trace : List (TxEvent ω)) (began upto : Nat) : List (TxEvent ω) :=
  (trace.take upto).drop began

/-- The method returned as it should for what it wrote, and what it leaves of that is what is
kept of it. Nothing of it is pending any more. -/
structure AnswerTold (trace : List (TxEvent ω)) (a : Answer ε γ α) : Prop where
  began : a.began ≤ a.upto
  upto : a.upto ≤ trace.length
  result : Q a.call (P.after base (trace.take a.began)) (P.writes (during trace a.began a.upto)) a.result
  settled : (P.kept (during trace a.began a.upto)).pending = []
  left : P.after base (trace.take a.upto) = (P.kept (during trace a.began a.upto)).durable.foldl P.put
    (P.after base (trace.take a.began))

structure ActiveTold (trace : List (TxEvent ω)) (o : Active ε δ ω γ α) : Prop where
  began : o.began ≤ trace.length
  idle : (P.kept (trace.take o.began)).pending = []
  sound : ∃ dirty, o.script.Sound P (P.after base (trace.take o.began))
      (Q o.call (P.after base (trace.take o.began))) (P.writes (trace.drop o.began)) dirty ∧
    ((P.kept trace).pending ≠ [] → dirty = true)

/-- What every run keeps. -/
structure Told (s : SharedConn ι ε δ ω γ α) : Prop where
  fits : Script.Fits P base s.conn (P.kept s.trace)
  mine : ∀ o, s.active user = some o → ActiveTold P Q base s.trace o
  rest : s.active user = none → (P.kept s.trace).pending = []
  others : ∀ j o, j ≠ user → s.active j = some o → o.script.Foreign P
  owned : ∀ j o, s.active j = some o → owner o.call = j
  answers : ∀ a ∈ s.answers, owner a.call = user → AnswerTold P Q base s.trace a

variable {P owner user Q base} {trace : List (TxEvent ω)}

theorem during_append {began upto : Nat} (h : upto ≤ trace.length) (events : List (TxEvent ω)) :
    during (trace ++ events) began upto = during trace began upto := by
  rw [during, List.take_append_of_le_length h]
  rfl

omit [DecidableEq ι] in
/-- An answer stays as it was. -/
theorem AnswerTold.append {a : Answer ε γ α} (h : AnswerTold P Q base trace a)
    (events : List (TxEvent ω)) : AnswerTold P Q base (trace ++ events) a := by
  have htake : (trace ++ events).take a.upto = trace.take a.upto := List.take_append_of_le_length h.upto
  have htake' : (trace ++ events).take a.began = trace.take a.began :=
    List.take_append_of_le_length (Nat.le_trans h.began h.upto)
  refine ⟨h.began, ?_, ?_, ?_, ?_⟩
  · rw [List.length_append]
    exact Nat.le_trans h.upto (Nat.le_add_right _ _)
  · rw [during_append h.upto, htake']
    exact h.result
  · rw [during_append h.upto]
    exact h.settled
  · rw [during_append h.upto, htake, htake']
    exact h.left

namespace ActiveTold
variable {o : Active ε δ ω γ α}

/-- What is kept of the whole trace, from what was kept when the method began. -/
theorem kept_eq (h : ActiveTold P Q base trace o) :
    P.kept trace = ⟨(P.kept (trace.take o.began)).durable ++ (P.kept (trace.drop o.began)).durable,
      (P.kept (trace.drop o.began)).pending⟩ := by
  rw [← P.kept_append_of_idle h.idle, List.take_append_drop]

/-- A method that has written nothing finds the part as it was. -/
theorem view (h : ActiveTold P Q base trace o) {c : Conn δ} (hfits : Script.Fits P base c (P.kept trace))
    (hquiet : P.writes (trace.drop o.began) = []) : P.of c.view = P.after base (trace.take o.began) := by
  have hnone := P.kept_sublist (trace.drop o.began)
  rw [hquiet, List.sublist_nil] at hnone
  obtain ⟨hdurable, hpending⟩ := List.append_eq_nil_iff.mp hnone
  rw [hfits.view, hfits.committed, h.kept_eq, hdurable, hpending, List.append_nil]
  rfl

/-- The others do not touch what the method relies on. -/
theorem foreign (h : ActiveTold P Q base trace o) {events : List (TxEvent ω)} (hquiet : P.writes events = []) :
    ActiveTold P Q base (trace ++ events) o := by
  obtain ⟨dirty, hsound, hdirty⟩ := h.sound
  have htake : (trace ++ events).take o.began = trace.take o.began := List.take_append_of_le_length h.began
  refine ⟨?_, ?_, dirty, ?_, ?_⟩
  · rw [List.length_append]
    exact Nat.le_trans h.began (Nat.le_add_right _ _)
  · rw [htake]
    exact h.idle
  · rw [htake, List.drop_append_of_le_length h.began, P.writes_append, hquiet, List.append_nil]
    exact hsound
  · intro hp
    refine hdirty (fun hnone => hp ?_)
    rw [P.kept_append]
    exact P.pending_of_quiet hquiet hnone

/-- The method's own step. -/
theorem step (h : ActiveTold P Q base trace o) {c : Conn δ} (hfits : Script.Fits P base c (P.kept trace))
    (E : Script.TxErrors ε) (fault : Option ε) :
    ActiveTold P Q base (trace ++ (o.script.step E c fault).events)
      { o with script := (o.script.step E c fault).script } := by
  obtain ⟨dirty, hsound, hdirty⟩ := h.sound
  have htake : ∀ events : List (TxEvent ω), (trace ++ events).take o.began = trace.take o.began :=
    fun _ => List.take_append_of_le_length h.began
  obtain ⟨dirty', hsound', hdirty'⟩ := hsound.step hfits (h.view hfits) hdirty E fault
  refine ⟨?_, ?_, dirty', ?_, ?_⟩
  · rw [List.length_append]
    exact Nat.le_trans h.began (Nat.le_add_right _ _)
  · rw [htake]
    exact h.idle
  · rw [htake, List.drop_append_of_le_length h.began, P.writes_append]
    exact hsound'
  · rw [P.kept_append]
    exact hdirty'

omit [DecidableEq ι] in
/-- A method that is done has its answer told. -/
theorem answer (h : ActiveTold P Q base trace o) {r : Except ε α} (hdone : o.script = .done r) :
    AnswerTold P Q base trace ⟨o.call, o.began, trace.length, r⟩ ∧ (P.kept trace).pending = [] := by
  obtain ⟨dirty, hsound, hdirty⟩ := h.sound
  rw [hdone] at hsound
  obtain ⟨hclean, hQ⟩ := hsound
  have hnone : (P.kept trace).pending = [] := by
    by_contra hp
    rw [hdirty hp] at hclean
    cases hclean
  have hduring : during trace o.began trace.length = trace.drop o.began := by
    rw [during, List.take_length]
  refine ⟨⟨h.began, Nat.le_refl _, ?_, ?_, ?_⟩, hnone⟩
  · rw [hduring]
    exact hQ
  · rw [hduring]
    rw [h.kept_eq] at hnone
    exact hnone
  · rw [hduring, List.take_length, Part.after, h.kept_eq, List.foldl_append]
    rfl

end ActiveTold
namespace Told
variable {s : SharedConn ι ε δ ω γ α}

/-- What holds of the methods under way, after one of them has come to a point. -/
theorem update {active : ι → Option (Active ε δ ω γ α)} {C : ι → Active ε δ ω γ α → Prop}
    (h : ∀ j o, active j = some o → C j o) {i : ι} {x : Option (Active ε δ ω γ α)}
    (hx : ∀ o, x = some o → C i o) : ∀ j o, Function.update active i x j = some o → C j o := by
  intro j o hact
  rw [Function.update_apply] at hact
  split at hact
  · rename_i hj
    subst hj
    exact hx o hact
  · exact h j o hact

/-- The user's method has come to a point. -/
theorem settle_mine {o : Active ε δ ω γ α} (hfits : Script.Fits P base s.conn (P.kept s.trace))
    (ho : ActiveTold P Q base s.trace o) (howner : owner o.call = user)
    (hothers : ∀ j o', j ≠ user → s.active j = some o' → o'.script.Foreign P)
    (howned : ∀ j o', s.active j = some o' → owner o'.call = j)
    (hanswers : ∀ a ∈ s.answers, owner a.call = user → AnswerTold P Q base s.trace a) :
    Told P owner user Q base (s.settle user o) := by
  have hrest : ∀ (x : Option (Active ε δ ω γ α)) j o', j ≠ user →
      Function.update s.active user x j = some o' → o'.script.Foreign P := by
    intro x j o' hj hact
    rw [Function.update_of_ne hj] at hact
    exact hothers j o' hj hact
  unfold settle
  split
  · rename_i r hdone
    obtain ⟨hanswer, hnone⟩ := ho.answer hdone
    refine ⟨hfits, ?_, fun _ => hnone, hrest none, update howned (fun _ h => nomatch h), ?_⟩
    · intro o' hact
      simp at hact
    · intro a ha hu
      rcases List.mem_append.mp ha with ha | ha
      · exact hanswers a ha hu
      · rw [List.mem_singleton.mp ha]
        exact hanswer
  · refine ⟨hfits, ?_, ?_, hrest (some o), update howned (fun o' ho' => ?_), hanswers⟩
    · intro o' hact
      simp only [Function.update_self, Option.some.injEq] at hact
      exact hact ▸ ho
    · intro hact
      simp at hact
    · cases ho'
      exact howner

/-- Another user's method has come to a point. -/
theorem settle_other {j : ι} {o : Active ε δ ω γ α} (h : Told P owner user Q base s) (hj : j ≠ user)
    (ho : o.script.Foreign P) (howner : owner o.call = j) :
    Told P owner user Q base (s.settle j o) := by
  have hmine : ∀ x : Option (Active ε δ ω γ α), Function.update s.active j x user = s.active user :=
    fun x => Function.update_of_ne (Ne.symm hj) x s.active
  have hothers : ∀ (x : Option (Active ε δ ω γ α)), (∀ o', x = some o' → o'.script.Foreign P) →
      ∀ j' o', j' ≠ user → Function.update s.active j x j' = some o' → o'.script.Foreign P :=
    fun x hx j' o' hj' hact => update (C := fun j' o' => j' ≠ user → o'.script.Foreign P)
      (fun j' o' hact' hj' => h.others j' o' hj' hact') (fun o' ho' _ => hx o' ho') j' o' hact hj'
  unfold settle
  split
  · refine ⟨h.fits, ?_, ?_, hothers none (fun o' ho' => nomatch ho'),
      update h.owned (fun _ h => nomatch h), ?_⟩
    · exact fun o' ho' => h.mine o' ((hmine none).symm.trans ho')
    · exact fun hact => h.rest ((hmine none).symm.trans hact)
    · intro a ha hu
      rcases List.mem_append.mp ha with ha | ha
      · exact h.answers a ha hu
      · rw [List.mem_singleton.mp ha] at hu
        exact absurd (howner.symm.trans hu) hj
  · refine ⟨h.fits, ?_, ?_, hothers (some o) (fun o' ho' => (Option.some.inj ho') ▸ ho),
      update h.owned (fun o' ho' => (Option.some.inj ho') ▸ howner), h.answers⟩
    · exact fun o' ho' => h.mine o' ((hmine (some o)).symm.trans ho')
    · exact fun hact => h.rest ((hmine (some o)).symm.trans hact)

omit [DecidableEq ι] in
/-- What another user's statement leaves. -/
theorem take_other (h : Told P owner user Q base s) {t : Script.Taken ε δ ω α}
    (hfits : Script.Fits P base t.conn (run P.keep (P.kept s.trace) t.events))
    (hquiet : P.writes t.events = []) : Told P owner user Q base (s.take t) where
  fits := by
    show Script.Fits P base t.conn (P.kept (s.trace ++ t.events))
    rw [P.kept_append]
    exact hfits
  mine := fun o ho => (h.mine o ho).foreign hquiet
  rest := by
    intro hact
    show (P.kept (s.trace ++ t.events)).pending = []
    rw [P.kept_append]
    exact P.pending_of_quiet hquiet (h.rest hact)
  others := h.others
  owned := h.owned
  answers := fun a ha hu => (h.answers a ha hu).append t.events

variable {E : Script.TxErrors ε} {program : γ → Script ε δ ω α}

theorem advance (h : Told P owner user Q base s) {i : ι} {o : Active ε δ ω γ α} (ho : s.active i = some o)
    (fault : Option ε) : Told P owner user Q base (s.advance E i fault o) := by
  by_cases hi : i = user
  · subst hi
    have hact := h.mine o ho
    obtain ⟨dirty, hsound, hdirty⟩ := hact.sound
    refine settle_mine ?_ (hact.step h.fits E fault) (h.owned i o ho) h.others h.owned
      (fun a ha hu => (h.answers a ha hu).append _)
    show Script.Fits P base _ (P.kept (s.trace ++ _))
    rw [P.kept_append]
    exact h.fits.step E fault (hsound.tellsNext (hact.view h.fits))
  · have hforeign := h.others i o hi ho
    obtain ⟨hscript, hquiet⟩ := hforeign.step (c := s.conn) E fault
    exact settle_other (h.take_other (h.fits.step E fault hforeign.tellsNext) hquiet) hi hscript
      (h.owned i o ho)

theorem next (hmine : ∀ call t, owner call = user → (program call).Sound P t (Q call t) [] false)
    (hothers : ∀ call, owner call ≠ user → (program call).Foreign P) (h : Told P owner user Q base s)
    (l : SharedStep ι ε γ) : Told P owner user Q base (s.next E owner program l) := by
  cases l with
  | call call =>
    simp only [SharedConn.next]
    split
    · exact h
    · rename_i hidle
      rw [Bool.not_eq_true, Option.isSome_eq_false_iff, Option.isNone_iff_eq_none] at hidle
      by_cases hi : owner call = user
      · subst hi
        refine settle_mine h.fits ⟨Nat.le_refl _, ?_, false, ?_, ?_⟩ rfl h.others h.owned h.answers
        · rw [List.take_length]
          exact h.rest hidle
        · rw [List.take_length, List.drop_length]
          exact hmine call _ rfl
        · exact fun hp => absurd (h.rest hidle) hp
      · exact settle_other h hi (hothers call hi) rfl
  | step i fault =>
    simp only [SharedConn.next]
    cases ho : s.active i with
    | none => exact h
    | some o => exact h.advance ho fault

end Told

variable {E : Script.TxErrors ε} {program : γ → Script ε δ ω α}

/-- **What a method that has returned leaves of its writes is what the trace leaves of them**,
in every run in which the other users do not write the same part. -/
theorem answers_told (hmine : ∀ call t, owner call = user → (program call).Sound P t (Q call t) [] false)
    (hothers : ∀ call, owner call ≠ user → (program call).Foreign P) (d : δ)
    (steps : List (SharedStep ι ε γ)) :
    Told P owner user Q (P.of d) (run (SharedConn.next E owner program) (.init d) steps) := by
  refine run_invariant (fun s l h => h.next hmine hothers l) ?_ steps
  refine ⟨⟨rfl, rfl, fun _ => rfl⟩, ?_, fun _ => rfl, ?_, ?_, ?_⟩
  · intro o ho
    cases ho
  · intro j o _ ho
    cases ho
  · intro j o ho
    cases ho
  · intro a ha
    cases ha

end SharedConn
end AgentKernel.Lib
