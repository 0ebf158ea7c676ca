import AgentKernel.Turns.Effects

/-! What stands between a turn and the executor.

A turn with an action whose admission service admits it and whose store is healthy comes to
the executor unless its time is up, its snapshot cannot be built, its engine cannot ask for
admission, its policy blocks it or one of its keys is taken. `gate` says which of these it
is, from what the turn is started with; a turn that is stepped alone ends accordingly
(`gated_run`). -/
namespace AgentKernel.Turns
open Lib Dedupe IdempotencyKeyPolicy

/-- What becomes of a turn before the executor. -/
inductive Gate where
  | raises
  | stops
  | opens
  deriving DecidableEq, Repr

section
variable (H : Digest) (L : Ledger)

def gateDedupe (c : Candidate) : Gate :=
  if (L c.legacyKey).isSome ∨ (L (c.policyKey H)).isSome then .stops else .opens

def gatePolicy (c : Candidate) : Gate :=
  if (resolveDispatchPolicy c.action).shouldBlock then .stops else gateDedupe H L c

def gateAdmission (engine : TurnEngine) (c : Candidate) : Gate :=
  if engine.admitCallable then gatePolicy H L c else .raises

def gateSnapshot (t : Turn) (ports : Ports) (action : Action) : Gate :=
  match buildSnapshot t ports action with
  | .ok snapshot => gateAdmission H L t.engine ⟨t.input, action, snapshot⟩
  | .error (.exception e) => if e.kind.isValueError then .stops else .raises
  | .error (.exit _) => .raises

/-- The gates of a turn that is about to start on its action. -/
def gate (t : Turn) (ports : Ports) (action : Action) : Gate :=
  if t.engine.outOfTime then .raises else gateSnapshot H L t ports action

end

/-- The admission service admits whatever it is asked about. -/
def Ports.Admits (ports : Ports) : Prop :=
  ∀ action snapshot, ∃ r, ports.evaluateAdmission action snapshot = .returned r ∧ isAdmitted r = .ok true

def Happening.invokes : Happening → Bool
  | .execute _ _ => true
  | _ => false

/-- How often the executor was invoked. -/
def System.executions {σ : Type} (e : System σ) : Nat := e.trace.countP (fun o => o.what.invokes)

def dispatches (events : List TurnStateEvent) : Nat := events.countP (fun event => event.state = .dispatched)

/-- The result of a turn that was stopped. -/
structure TurnResult.Stopped (r : TurnResult) : Prop where
  kind : r.outcomeKind = .noop ∨ r.outcomeKind = .blocked
  undispatched : dispatches r.emittedEvents = 0

/-- A turn that has not come to the executor, and the gate that is still ahead. -/
def Turn.Gated (H : Digest) (L : Ledger) (ports : Ports) (G : Gate) (t : Turn) : Prop :=
  match t.progress with
  | .noopOrReasoning (some action) => dispatches t.events = 0 ∧ G = gate H L t ports action
  | .snapshot action => dispatches t.events = 0 ∧ G = gateSnapshot H L t ports action
  | .admission c => dispatches t.events = 0 ∧ G = gateAdmission H L t.engine c
  | .admitting c | .dispatchPolicy c _ => dispatches t.events = 0 ∧ G = gatePolicy H L c
  | .dedupe c _ _ => dispatches t.events = 0 ∧ G = gateDedupe H L c
  | .execute _ => G = .opens
  | .finished (.returned r) => G = .stops ∧ r.Stopped
  | .finished (.raised _) => G = .raises
  | _ => False

/-- How many steps are left at most. -/
def Progress.left : Progress → Nat
  | .noopOrReasoning _ | .reasoning _ => 8
  | .snapshot _ => 7
  | .admission _ => 6
  | .admitting _ => 5
  | .dispatchPolicy _ _ => 4
  | .dedupe _ _ _ => 3
  | .execute _ => 2
  | .executing _ _ => 1
  | .finished _ => 0

theorem gated_start (H : Digest) (L : Ledger) (engine : TurnEngine) (input : TurnInput) (action : Action)
    (ports : Ports) : (Turn.start engine input (some action)).Gated H L ports
      (gate H L (Turn.start engine input (some action)) ports action) :=
  ⟨rfl, rfl⟩

theorem dispatches_append {events new : List TurnStateEvent} (h : dispatches events = 0)
    (hnew : dispatches new = 0) : dispatches (events ++ new) = 0 := by
  unfold dispatches at *
  rw [List.countP_append, h, hnew]

section
variable {S : HealthyStore} {H : Digest} {ports : Ports} {G : Gate} {t : Turn} {s : S.State}

/-- What a step of a gated turn comes to: the next gate, without the executor. -/
def Gated.Next (S : HealthyStore) (H : Digest) (ports : Ports) (G : Gate) (t : Turn) (m : Move) (s' : S.State) :
    Prop :=
  m.happened.countP Happening.invokes = 0 ∧ (t.after m).Gated H (S.view s') ports G ∧
    m.progress.left ≤ t.progress.left - 1

/-- The dedupe phase. -/
theorem gated_dedupe {c : Candidate} {r : AdmissionValue} {policy : DispatchPolicy}
    (hp : t.progress = .dedupe c r policy) (hquiet : dispatches t.events = 0) :
    ∃ m s', phaseDedupe S.port H t c r policy s = .ok m s' ∧
      Gated.Next S H ports (gateDedupe H (S.view s) c) t m s' := by
  have hstopped : dispatches (t.events ++ [{ state := .dispatchBlocked }]) = 0 :=
    dispatches_append hquiet rfl
  have hleft : 0 ≤ t.progress.left - 1 := Nat.zero_le _
  unfold gateDedupe
  rcases phaseDedupe_cases S H t c r policy (s := s) with ⟨hlegacy, s', hphase, -⟩ |
    ⟨-, hpolicy, s', hphase, -⟩ | ⟨hlegacy, hpolicy, s', rec, rec', hphase, -⟩
  · refine ⟨_, s', hphase, rfl, ?_, hleft⟩
    exact ⟨if_pos (.inl (Option.isSome_iff_ne_none.mpr hlegacy)), .inr rfl, hstopped⟩
  · refine ⟨_, s', hphase, rfl, ?_, hleft⟩
    exact ⟨if_pos (.inr (Option.isSome_iff_ne_none.mpr hpolicy)), .inr rfl, hstopped⟩
  · refine ⟨_, s', hphase, ?_, ?_, ?_⟩
    · rw [dispatchAccepted, reservationHappened_answered]
      rfl
    · exact if_neg (by simp [hlegacy, hpolicy])
    · rw [hp]
      exact Nat.le_refl 2

theorem timedOut_of_outOfTime (h : t.engine.outOfTime = true) :
    timedOut t [] = .raise t.events (.exception timeoutError) := by
  unfold TurnEngine.outOfTime at h
  unfold timedOut
  split
  · rfl
  · rename_i hnone
    rw [hnone] at h
    cases h

/-- The first phase: a turn that has an action takes it, unless its time is up. -/
theorem gated_begin {action : Action} (hp : t.progress = .noopOrReasoning (some action))
    (hquiet : dispatches t.events = 0) :
    Gated.Next S H ports (gate H (S.view s) t ports action) t
      (if t.engine.outOfTime then timedOut t [] else phaseNoopOrReasoning t ports (some action)) s := by
  unfold gate
  split
  · rename_i htime
    rw [timedOut_of_outOfTime htime]
    exact ⟨rfl, rfl, Nat.zero_le _⟩
  · refine ⟨rfl, ⟨hquiet, rfl⟩, ?_⟩
    rw [hp]
    exact Nat.le_refl 7

theorem gated_snapshot {action : Action} (hp : t.progress = .snapshot action)
    (hquiet : dispatches t.events = 0) :
    Gated.Next S H ports (gateSnapshot H (S.view s) t ports action) t (phaseSnapshot H t ports action) s := by
  have hleft : 0 ≤ t.progress.left - 1 := Nat.zero_le _
  unfold gateSnapshot phaseSnapshot
  cases buildSnapshot t ports action with
  | ok snapshot =>
    refine ⟨rfl, ⟨dispatches_append hquiet rfl, rfl⟩, ?_⟩
    rw [hp]
    exact Nat.le_refl 6
  | error r =>
    cases r with
    | exit name => exact ⟨rfl, rfl, hleft⟩
    | exception e =>
      dsimp only
      split
      · exact ⟨rfl, ⟨rfl, .inl rfl, dispatches_append hquiet rfl⟩, hleft⟩
      · exact ⟨rfl, rfl, hleft⟩

theorem gated_admission {c : Candidate} (hp : t.progress = .admission c)
    (hquiet : dispatches t.events = 0) :
    Gated.Next S H ports (gateAdmission H (S.view s) t.engine c) t (phaseAdmission t c) s := by
  unfold gateAdmission phaseAdmission
  split
  · refine ⟨rfl, ⟨hquiet, rfl⟩, ?_⟩
    rw [hp]
    exact Nat.le_refl 5
  · exact ⟨rfl, rfl, Nat.zero_le _⟩

theorem gated_dispatchPolicy {c : Candidate} {r : AdmissionValue}
    (hp : t.progress = .dispatchPolicy c r) (hquiet : dispatches t.events = 0) :
    Gated.Next S H ports (gatePolicy H (S.view s) c) t (phaseDispatchPolicy H t c r) s := by
  unfold gatePolicy phaseDispatchPolicy
  dsimp only
  split
  · exact ⟨rfl, ⟨rfl, .inr rfl, dispatches_append hquiet rfl⟩, Nat.zero_le _⟩
  · refine ⟨rfl, ⟨hquiet, rfl⟩, ?_⟩
    rw [hp]
    exact Nat.le_refl 3

theorem gated_advance (hadmits : ports.Admits) (h : t.Gated H (S.view s) ports G)
    (hbefore : ∀ d, t.progress ≠ .execute d) :
    ∃ m s', advance S.port H t ports s = .ok m s' ∧ Gated.Next S H ports G t m s' := by
  unfold Turn.Gated at h
  unfold advance
  cases hp : t.progress with
  | noopOrReasoning action? =>
    rw [hp] at h
    cases action? with
    | none => cases h
    | some action =>
      obtain ⟨hquiet, rfl⟩ := h
      have hnext : Gated.Next S H ports (gate H (S.view s) t ports action) t _ s :=
        gated_begin hp hquiet
      dsimp only
      split
      · rename_i htime
        rw [if_pos htime] at hnext
        exact ⟨_, s, rfl, hnext⟩
      · rename_i htime
        rw [if_neg htime] at hnext
        exact ⟨_, s, rfl, hnext⟩
  | snapshot action =>
    rw [hp] at h
    obtain ⟨hquiet, rfl⟩ := h
    exact ⟨_, s, rfl, gated_snapshot hp hquiet⟩
  | admission c =>
    rw [hp] at h
    obtain ⟨hquiet, rfl⟩ := h
    exact ⟨_, s, rfl, gated_admission hp hquiet⟩
  | admitting c =>
    rw [hp] at h
    obtain ⟨hquiet, hG⟩ := h
    obtain ⟨r, hanswer, hadmitted⟩ := hadmits c.action c.snapshot
    have hmove : admissionReturned H t c r =
        { events := t.events ++ [{ state := .admissionChecked }]
          progress := .dispatchPolicy c r
          happened := [.admission r] } := by
      unfold admissionReturned
      rw [hadmitted]
    simp only [hanswer, hmove]
    refine ⟨_, s, rfl, rfl, ⟨dispatches_append hquiet rfl, hG⟩, ?_⟩
    rw [hp]
    exact Nat.le_refl 4
  | dispatchPolicy c r =>
    rw [hp] at h
    obtain ⟨hquiet, rfl⟩ := h
    exact ⟨_, s, rfl, gated_dispatchPolicy hp hquiet⟩
  | dedupe c r policy =>
    rw [hp] at h
    obtain ⟨hquiet, rfl⟩ := h
    have hdedupe : ∃ m s', phaseDedupe S.port H t c r policy s = .ok m s' ∧
        Gated.Next S H ports (gateDedupe H (S.view s) c) t m s' := gated_dedupe hp hquiet
    obtain ⟨m, s', hphase, hnext⟩ := hdedupe
    refine ⟨m, s', ?_, hnext⟩
    simp only [guarded, Call.tryCatch_apply, hphase]
  | execute d => exact absurd hp (hbefore d)
  | finished outcome =>
    refine ⟨_, s, rfl, rfl, ?_, Nat.zero_le _⟩
    unfold Turn.Gated
    rw [hp] at h
    exact h
  | _ =>
    rw [hp] at h
    cases h

/-- **A step of a gated turn meets its next gate.** -/
theorem gated_move (hadmits : ports.Admits) (h : t.Gated H (S.view s) ports G)
    (hbefore : ∀ d, t.progress ≠ .execute d) :
    Gated.Next S H ports G t (t.move S.port H ports s).1 (t.move S.port H ports s).2 := by
  obtain ⟨m, s', hadvance, hnext⟩ := gated_advance hadmits h hbefore
  simp only [Turn.move, hadvance]
  exact hnext

end

/-! ### A turn that is stepped alone -/

section
variable {σ : Type} {port : DedupeStorePort σ} {H : Digest} {e : System σ}

theorem executions_append (trace : List Observation) (k : Nat) (happened : List Happening) :
    (trace ++ tagged k happened).countP (fun o => o.what.invokes) =
      trace.countP (fun o => o.what.invokes) + happened.countP Happening.invokes := by
  rw [List.countP_append, tagged, List.countP_map]
  rfl

theorem step_turn {k : Nat} {t : Turn} (ht : e.turns[k]? = some t) (ports : Ports) :
    e.step port H ⟨k, ports⟩ =
      { store := (t.move port H ports e.store).2
        turns := e.turns.set k (t.after (t.move port H ports e.store).1)
        trace := e.trace ++ tagged k (t.move port H ports e.store).1.happened } := by
  unfold System.step
  simp only [ht]

theorem executions_step (l : Label) : e.executions ≤ (e.step port H l).executions := by
  unfold System.step
  split
  · exact Nat.le_refl _
  · unfold System.executions
    rw [executions_append]
    exact Nat.le_add_right _ _

theorem executions_run (labels : List Label) : e.executions ≤ (run (System.step port H) e labels).executions :=
  run_invariant (I := fun e' : System σ => e.executions ≤ e'.executions)
    (fun _ l h => Nat.le_trans h (executions_step l)) (Nat.le_refl _) labels

end

/-- How a gated turn ends. -/
def Turn.Ended (t : Turn) : Gate → Prop
  | .raises => ∃ r, t.progress = .finished (.raised r)
  | .stops => ∃ result, t.progress = .finished (.returned result) ∧ result.Stopped
  | .opens => True

section
variable {S : HealthyStore} {H : Digest} {ports : Ports} {G : Gate} {k : Nat}

/-- **A turn alone ends as its gate says**: it invokes the executor if the gate opens, and
else it ends without. -/
theorem gated_run (hadmits : ports.Admits) {n : Nat} {e : System S.State} {t : Turn}
    (ht : e.turns[k]? = some t) (h : t.Gated H (S.view e.store) ports G) (hleft : t.progress.left ≤ n) :
    (G = .opens → e.executions < (run (System.step S.port H) e (List.replicate n ⟨k, ports⟩)).executions) ∧
    (G ≠ .opens →
      (run (System.step S.port H) e (List.replicate n ⟨k, ports⟩)).executions = e.executions ∧
      ∃ t', (run (System.step S.port H) e (List.replicate n ⟨k, ports⟩)).turns[k]? = some t' ∧ t'.Ended G) := by
  obtain ⟨hlt, -⟩ := List.getElem?_eq_some_iff.mp ht
  induction n generalizing e t with
  | zero =>
    rw [List.replicate_zero, run_nil]
    unfold Turn.Gated at h
    cases hp : t.progress with
    | finished outcome =>
      rw [hp] at h
      cases outcome with
      | returned result =>
        obtain ⟨rfl, hstopped⟩ := h
        exact ⟨nofun, fun _ => ⟨rfl, t, ht, result, hp, hstopped⟩⟩
      | raised r =>
        obtain rfl : G = .raises := h
        exact ⟨nofun, fun _ => ⟨rfl, t, ht, r, hp⟩⟩
    | _ =>
      rw [hp] at hleft
      cases hleft
  | succ n ih =>
    rw [List.replicate_succ, run_cons]
    have hstep : e.step S.port H ⟨k, ports⟩ = _ := step_turn ht ports
    by_cases hexecute : ∃ d, t.progress = .execute d
    · obtain ⟨d, hp⟩ := hexecute
      have hG : G = .opens := by
        unfold Turn.Gated at h
        rw [hp] at h
        exact h
      have hinvoked : e.executions < (e.step S.port H ⟨k, ports⟩).executions := by
        have hmove : (t.move S.port H ports e.store).1 = phaseExecute H t d := by
          simp only [Turn.move, advance, hp]
          rfl
        rw [hstep]
        unfold System.executions
        rw [executions_append, hmove]
        exact Nat.lt_succ_self _
      exact ⟨fun _ => Nat.lt_of_lt_of_le hinvoked (executions_run _), fun hne => absurd hG hne⟩
    · obtain ⟨hsilent, hgated, hless⟩ := gated_move hadmits h (fun d hp => hexecute ⟨d, hp⟩)
      have hsame : (e.step S.port H ⟨k, ports⟩).executions = e.executions := by
        rw [hstep]
        unfold System.executions
        rw [executions_append, hsilent, Nat.add_zero]
      have hturn : (e.step S.port H ⟨k, ports⟩).turns[k]? =
          some (t.after (t.move S.port H ports e.store).1) := by
        rw [hstep]
        exact List.getElem?_set_self hlt
      have hview : (t.after (t.move S.port H ports e.store).1).Gated H
          (S.view (e.step S.port H ⟨k, ports⟩).store) ports G := by
        rw [hstep]
        exact hgated
      have hrest := ih hturn hview (by
        show (t.move S.port H ports e.store).1.progress.left ≤ n
        omega) (by
        rw [hstep, List.length_set]
        exact hlt)
      rw [hsame] at hrest
      exact hrest

end
end AgentKernel.Turns
