import AgentKernel.Turns.Closure
import AgentKernel.Workflow.Engine

/-! What the roll-back of a lost outcome comes to.

When the outcome of a turn cannot be recorded, `process_action_commit` marks the turn's
key as an unknown effect and drops whatever the store raises. A turn that returned has
closed its key before, though, and neither of the two states it leaves can be marked: an
unknown effect is one already, and an acknowledged record refuses. So the loss shows in
the record exactly when the executor had not acknowledged (`lost_outcome_surfaced_iff`). -/
namespace AgentKernel.Workflow
open Lib Dedupe Turns Events Projection Reconcile

/-! ### What a turn that returned leaves of its key -/

/-- The executor returned, with this truth value for `acknowledged`. -/
def Acknowledges (a : Awaited ExecuteResult) (b : Bool) : Prop :=
  ∃ result, a = .returned result ∧ result.acknowledged = .ok b

theorem Acknowledges.unique {a : Awaited ExecuteResult} {b b' : Bool} (h : Acknowledges a b)
    (h' : Acknowledges a b') : b = b' := by
  obtain ⟨result, rfl, hb⟩ := h
  obtain ⟨result', heq, hb'⟩ := h'
  cases heq
  rw [hb] at hb'
  exact Except.ok.inj hb'

/-- The states such a turn leaves its key in for good. -/
def Leaves : Bool → DedupeState → Prop
  | true, state => state = .acknowledged ∨ state = .succeeded
  | false, state => state = .unknownEffect

theorem leaves_advances {b : Bool} {s s' : DedupeState} (h : Advances s s') (hs : Leaves b s) :
    Leaves b s' := by
  cases b with
  | true =>
    rcases hs with rfl | rfl
    · cases h with
      | stay => exact .inl rfl
      | succeed => exact .inr rfl
    · cases h with
      | stay => exact .inr rfl
  | false =>
    cases hs
    cases h with
    | stay => rfl

/-- The key's record is where a turn has left it. -/
def Left (L : Ledger) (key : String) (b : Bool) : Prop := ∃ r, L key = some r ∧ Leaves b r.state

theorem Left.unknown_iff {L : Ledger} {key : String} {b : Bool} (h : Left L key b) :
    HasState L key .unknownEffect ↔ b = false := by
  obtain ⟨r, hr, hleaves⟩ := h
  constructor
  · intro hunknown
    obtain ⟨r', hr', hstate⟩ := hunknown
    rw [hr] at hr'
    cases hr'
    cases b with
    | true =>
      rcases hleaves with h | h
      · rw [hstate] at h
        cases h
      · rw [hstate] at h
        cases h
    | false => rfl
  · intro hb
    subst hb
    exact ⟨r, hr, hleaves⟩

/-- No call of a store moves a record on from there. -/
theorem preserves_left (S : HealthyStore) (key : String) (b : Bool) :
    PortPreserves S.port (fun s => Left (S.view s) key b) := by
  intro c s hs
  obtain ⟨r, hr, hleaves⟩ := hs
  obtain ⟨r', hr', hforward⟩ := HealthyStore.forward_after c s key r hr
  exact ⟨r', hr', leaves_advances hforward.state hleaves⟩

/-- A returned turn names its policy key, and has left it for good. -/
structure Concluded (H : Digest) (L : Ledger) (c : Candidate) (a : Awaited ExecuteResult)
    (result : TurnResult) : Prop where
  key : result.dispatchDedupeKey = some (c.policyKey H)
  left : ∃ b, Acknowledges a b ∧ Left L (c.policyKey H) b

/-! ### The end of an execution, whatever has become of the keys -/

inductive Ending (H : Digest) (L : Ledger) (d : Dispatch) (call : ExecutorCall)
    (a : Awaited ExecuteResult) (m : Move) : Prop where
  | waiting : m.progress = .executing d call → m.happened = [] → Ending H L d call a m
  | raised {r : Raised} : m.progress = .finished (.raised r) →
    m.happened = [.executed d.candidate a] → Ending H L d call a m
  | returned {result : TurnResult} : m.progress = .finished (.returned result) →
    m.happened = [.executed d.candidate a] → Concluded H L d.candidate a result →
    Ending H L d call a m

section
variable {S : HealthyStore} {H : Digest} {t : Turn} {d : Dispatch} {s : S.State}

/-- Marks that both returned leave what the first one left. -/
theorem markBoth_left {markKey : Call PyError S.State Unit} {mark : String → Call PyError S.State Unit}
    {P : S.State → Prop} {s' : S.State} (hd : d.dedupeAvailable = true)
    (hkey : ∀ s s', markKey s = .ok () s' → P s') (hmark : ∀ key, Call.Preserves P (mark key))
    (h : markBoth d markKey mark s = .ok () s') : P s' := by
  have halias : Call.Preserves P (markAlias mark d.legacyAliasKey) := by
    unfold markAlias
    split
    · exact (hmark _).suppress
    · exact Call.preserves_pure ()
  simp only [markBoth, hd, if_true, Call.bind_apply] at h
  cases hfirst : markKey s with
  | ok u s₁ =>
    rw [hfirst] at h
    have hrest : markAlias mark d.legacyAliasKey s₁ = .ok () s' := h
    have hafter := halias s₁ (hkey s s₁ hfirst)
    rw [(Call.outcome_ok hrest).2] at hafter
    exact hafter
  | error e s₁ =>
    rw [hfirst] at h
    cases h

/-- A phase that marks both keys either returns, with its key left for good, or raises. -/
theorem closing_ending {markKey : Call PyError S.State Unit} {mark : String → Call PyError S.State Unit}
    {call : ExecutorCall} {a : Awaited ExecuteResult} {b : Bool} {result : TurnResult}
    (hd : d.dedupeAvailable = true) (ha : Acknowledges a b)
    (hresult : result.dispatchDedupeKey = some (d.candidate.policyKey H))
    (hkey : ∀ s s', markKey s = .ok () s' → Left (S.view s') (d.candidate.policyKey H) b)
    (hmark : ∀ key, Call.Preserves (fun s => Left (S.view s) (d.candidate.policyKey H) b) (mark key)) :
    ∃ m s', (Move.observed [.executed d.candidate a] <$> guarded t
        ((fun _ => .return result []) <$> markBoth d markKey mark)) s = .ok m s' ∧
      Ending H (S.view s') d call a m := by
  cases hmarked : markBoth d markKey mark s with
  | ok u s' =>
    refine ⟨(Move.return result []).observed [.executed d.candidate a], s', ?_, ?_⟩
    · simp only [Call.map_apply, guarded, Call.tryCatch_apply, hmarked]
    · exact .returned rfl rfl ⟨hresult, b, ha, markBoth_left hd hkey hmark hmarked⟩
  | error e s' =>
    refine ⟨(Move.raise t.events (.exception e)).observed [.executed d.candidate a], s', ?_, ?_⟩
    · simp only [Call.map_apply, guarded, Call.tryCatch_apply, hmarked, Call.pure_apply]
    · exact .raised rfl rfl

theorem executionEnded_ending {call : ExecutorCall} (hd : d.dedupeAvailable = true)
    (ht : t.progress = .executing d call) (now : String) (a : Awaited ExecuteResult) :
    ∃ m s', executionEnded S.port H t d now a s = .ok m s' ∧ Ending H (S.view s') d call a m := by
  have hleft := preserves_left S (d.candidate.policyKey H)
  cases a with
  | returned result =>
    cases hack : result.acknowledged with
    | error e =>
      refine ⟨(Move.raise t.events (.exception e)).observed
        [.executed d.candidate (.returned result)], s, ?_, .raised rfl rfl⟩
      simp only [executionEnded, executorReturned, hack, guarded, Call.map_apply,
        Call.tryCatch_apply, Call.throw_apply, Call.pure_apply]
    | ok acknowledged =>
      simp only [executionEnded, executorReturned, hack]
      cases acknowledged with
      | true =>
        refine closing_ending hd ⟨result, rfl, hack⟩ rfl (fun s s' h => ?_)
          (fun key => preserves_markAcknowledged (hleft true) key none)
        obtain ⟨r, hr, hstate⟩ := HealthyStore.mark_ok (m := .acknowledged)
          (c := .markAcknowledged (d.candidate.policyKey H) none) rfl rfl h
        exact ⟨r, hr, .inl hstate⟩
      | false =>
        refine closing_ending hd ⟨result, rfl, hack⟩ rfl (fun s s' h => ?_)
          (fun key => preserves_markUnknownEffect (hleft false) key)
        exact HealthyStore.mark_ok (m := .unknownEffect)
          (c := .markUnknownEffect (d.candidate.policyKey H)) rfl rfl h
  | raised raised =>
    cases raised with
    | exception e =>
      simp only [executionEnded, executorRaised, Call.map_apply, guarded, Call.tryCatch_apply]
      cases markBoth d (S.port.markUnknownEffect (d.candidate.identity H).dispatchDedupeKey).suppress
        S.port.markUnknownEffect s with
      | ok u s' => exact ⟨_, s', rfl, .raised rfl rfl⟩
      | error e' s' => exact ⟨_, s', rfl, .raised rfl rfl⟩
    | exit name =>
      exact ⟨(Move.raise t.events (.exit name)).observed
        [.executed d.candidate (.raised (.exit name))], s, rfl, .raised rfl rfl⟩
  | timedOut =>
    refine ⟨_, s, rfl, ?_⟩
    unfold timedOut
    split
    · exact .raised rfl rfl
    · exact .waiting ht rfl

end

/-! ### Turns among calls that write to their store -/

/-- What is known of a turn, whoever else has marked its keys. -/
structure Accounted (H : Digest) (L : Ledger) (p : Progress) (history : List Happening) : Prop where
  recorded : Recorded H p history
  available : ∀ d, (p = .execute d ∨ ∃ call, p = .executing d call) → d.dedupeAvailable = true
  concluded : ∀ result c a, p = .finished (.returned result) → .executed c a ∈ history →
    Concluded H L c a result

section
variable {H : Digest} {L L' : Ledger} {p p' : Progress} {history new : List Happening}

theorem Accounted.mono (h : Accounted H L p history)
    (hleft : ∀ key b, Left L key b → Left L' key b) : Accounted H L' p history where
  recorded := h.recorded
  available := h.available
  concluded := by
    intro result c a hp hmem
    obtain ⟨hkey, b, ha, hb⟩ := h.concluded result c a hp hmem
    exact ⟨hkey, b, ha, hleft _ _ hb⟩

/-- A step that ends no execution. -/
theorem Accounted.of_effect (h : Accounted H L p history) (heffect : Effect H L p new p' L')
    (hp : ∀ d call, p ≠ .executing d call) : Accounted H L' p' (history ++ new) where
  recorded := heffect.recorded h.recorded
  available := by
    intro d hd
    cases heffect with
    | early _ hp' =>
      rcases hp' with hp' | ⟨o, rfl⟩
      · rcases hd with rfl | ⟨call, rfl⟩ <;> cases hp'
      · rcases hd with hd | ⟨call, hd⟩ <;> cases hd
    | accepted _ htracked =>
      rcases hd with hd | ⟨call, hd⟩
      · cases hd
        exact htracked.available
      · cases hd
    | invoked =>
      rcases hd with hd | ⟨call, hd⟩
      · cases hd
      · cases hd
        exact h.available d (.inl rfl)
    | waiting => exact h.available d hd
    | _ => rcases hd with hd | ⟨call, hd⟩ <;> cases hd
  concluded := by
    intro result c a hp' hmem
    rcases List.mem_append.mp hmem with hold | hmem
    · obtain ⟨-, o, rfl⟩ := h.recorded.of_executed hold
      cases heffect with
      | early hearly _ => cases hearly
      | waiting => exact h.concluded result c a hp' hold
    · cases heffect with
      | closed _ _ _ _ => exact absurd rfl (hp _ _)
      | abandoned _ => exact absurd rfl (hp _ _)
      | _ => simp at hmem

/-- A step that ends an execution, or waits on for it. -/
theorem Accounted.of_ending {d : Dispatch} {call : ExecutorCall} {a : Awaited ExecuteResult} {m : Move}
    (h : Accounted H L (.executing d call) history) (hending : Ending H L' d call a m) :
    Accounted H L' m.progress (history ++ m.happened) := by
  have hended : ∀ o, Recorded H (.finished o) (history ++ [.executed d.candidate a]) := by
    intro o
    cases h.recorded with
    | early hearly => cases hearly
    | executing hadmitted =>
      rw [List.append_assoc]
      exact .finished (.executed _ _ _ hadmitted)
  have hfree : ∀ o (d' : Dispatch),
      ((.finished o : Progress) = .execute d' ∨ ∃ call, (.finished o : Progress) = .executing d' call) →
      d'.dedupeAvailable = true := by
    intro o d' hd
    rcases hd with hd | ⟨call, hd⟩ <;> cases hd
  cases hending with
  | waiting hp hnone =>
    rw [hp, hnone, List.append_nil]
    refine ⟨h.recorded, h.available, ?_⟩
    intro result c a' hfinished
    cases hfinished
  | raised hp hexecuted =>
    rw [hp, hexecuted]
    refine ⟨hended _, hfree _, ?_⟩
    intro result c a' hreturned
    cases hreturned
  | returned hp hexecuted hconcluded =>
    rw [hp, hexecuted]
    refine ⟨hended _, hfree _, ?_⟩
    intro result c a' hreturned hmem
    cases hreturned
    rcases List.mem_append.mp hmem with hmem | hmem
    · obtain ⟨-, o, ho⟩ := h.recorded.of_executed hmem
      cases ho
    · cases List.mem_singleton.mp hmem
      exact hconcluded

end

theorem move_accounted {S : HealthyStore} {H : Digest} {t : Turn} {s : S.State}
    {history : List Happening} (h : Accounted H (S.view s) t.progress history) (ports : Ports) :
    Accounted H (S.view (t.move S.port H ports s).2) (t.move S.port H ports s).1.progress
      (history ++ (t.move S.port H ports s).1.happened) := by
  cases hp : t.progress with
  | executing d call =>
    rw [hp] at h
    obtain ⟨m, s', hadvance, hending⟩ := executionEnded_ending (S := S) (H := H) (s := s)
      (h.available d (.inr ⟨call, rfl⟩)) hp ports.utcNowIso (ports.execute call)
    have hmove : t.move S.port H ports s = (m, s') := by
      simp only [Turn.move, advance, hp, hadvance]
    rw [hmove]
    exact h.of_ending hending
  | execute d =>
    have hmove : t.move S.port H ports s = (phaseExecute H t d, s) := by
      simp only [Turn.move, advance, hp]
      rfl
    rw [hmove]
    rw [hp] at h
    refine h.of_effect .invoked (fun _ _ hexecuting => ?_)
    cases hexecuting
  | _ =>
    refine h.of_effect (move_effect S H t ports s ?_) ?_
    · rw [hp]
      exact trivial
    · rw [hp]
      intro _ _ hexecuting
      cases hexecuting

/-! ### Runs of the world -/

/-- What is known of every turn of an engine. -/
structure Books (S : HealthyStore) (H : Digest) (e : System S.State) : Prop where
  turns : ∀ (k : Nat) (t : Turn), e.turns[k]? = some t →
    Accounted H (S.view e.store) t.progress (historyOf k e.trace)
  within : ∀ k : Nat, e.turns[k]? = none → historyOf k e.trace = []

section
variable {S : HealthyStore} {H : Digest} {e : System S.State}

/-- Calls from outside the turns. -/
theorem Books.store (h : Books S H e) {store : S.State}
    (hleft : ∀ key b, Left (S.view e.store) key b → Left (S.view store) key b) :
    Books S H { e with store := store } where
  turns := fun k t ht => (h.turns k t ht).mono hleft
  within := h.within

theorem Books.started (h : Books S H e) (c : TurnCall) :
    Books S H { e with turns := e.turns ++ [Turn.start c.engine c.input c.action] } where
  turns := by
    intro k t ht
    rcases added_turn ht with ht | ⟨hnone, rfl⟩
    · exact h.turns k t ht
    · show Accounted H _ (.noopOrReasoning c.action) (historyOf k e.trace)
      rw [h.within k hnone]
      refine ⟨.early rfl, ?_, ?_⟩
      · intro d hd
        rcases hd with hd | ⟨call, hd⟩ <;> cases hd
      · intro result c' a hfinished
        cases hfinished
  within := fun k hk => h.within k (not_added_turn hk)

theorem Books.moved (h : Books S H e) (l : Turns.Label)
    (hleft : ∀ key b, Left (S.view e.store) key b → Left (S.view (e.step S.port H l).store) key b) :
    Books S H (e.step S.port H l) := by
  unfold System.step at hleft ⊢
  cases hturn : e.turns[l.turn]? with
  | none => exact h
  | some t =>
    rw [hturn] at hleft
    obtain ⟨hlt, -⟩ := List.getElem?_eq_some_iff.mp hturn
    constructor
    · intro k u hu
      have hset : (e.turns.set l.turn (t.after (t.move S.port H l.ports e.store).1))[k]? = some u := hu
      show Accounted H _ u.progress (historyOf k (e.trace ++ tagged l.turn _))
      rw [historyOf_extend]
      by_cases hk : k = l.turn
      · subst hk
        rw [List.getElem?_set_self hlt] at hset
        cases hset
        rw [if_pos rfl]
        exact move_accounted (h.turns _ t hturn) l.ports
      · rw [List.getElem?_set_ne (Ne.symm hk)] at hset
        rw [if_neg hk, List.append_nil]
        exact (h.turns k u hset).mono hleft
    · intro k hk
      have hset : (e.turns.set l.turn (t.after (t.move S.port H l.ports e.store).1))[k]? = none := hk
      have hle := List.getElem?_eq_none_iff.mp hset
      rw [List.length_set] at hle
      show historyOf k (e.trace ++ tagged l.turn _) = []
      rw [historyOf_extend, if_neg (by omega), List.append_nil]
      exact h.within k (List.getElem?_eq_none hle)

variable {K : Kernel S.State} {w : World S.State}

theorem books_step (hK : K.outbox.port = S.port) (h : Books S K.digest w.process.engine) (l : Label) :
    Books S K.digest (w.step K l).process.engine := by
  have hleft : ∀ key b, Left (S.view w.process.engine.store) key b →
      Left (S.view (w.step K l).process.engine.store) key b := by
    intro key b
    exact step_store_preserves (P := fun s => Left (S.view s) key b)
      (by rw [hK]; exact preserves_left S key b) l
  have hstep := step_engine K w l
  generalize (w.step K l).process.engine = e at hstep hleft
  cases hstep with
  | same => exact h
  | moved =>
    rw [hK] at hleft ⊢
    exact h.moved _ hleft
  | started c => exact h.started c
  | rolledBack hcall hlost hkey => exact h.store hleft
  | swept hcall hloaded => exact h.store hleft

theorem books_run (hK : K.outbox.port = S.port) (journal : Journal) (store : S.State)
    (labels : List Label) :
    Books S K.digest (run (World.step K) (World.fresh journal store) labels).process.engine := by
  have hfresh : Books S K.digest (World.fresh journal store).process.engine :=
    ⟨fun _ _ ht => (by cases ht), fun _ _ => rfl⟩
  exact run_invariant (I := fun w : World S.State => Books S K.digest w.process.engine)
    (fun _ l h => books_step hK h l) hfresh labels

end

/-! ### Lost outcomes -/

/-- A call was told the result of its turn, could not record it, and has ended. -/
structure LostOutcome {σ : Type} (w : World σ) (i k : Nat) (result : TurnResult) : Prop where
  told : ∃ a, ⟨i, .served (.turning a k) (.ok result)⟩ ∈ w.trace
  lost : ∃ st reply, ⟨i, .served st reply⟩ ∈ w.trace ∧ Unrecorded result st reply
  ended : ∃ r, w.calls[i]? = some (.ended r)

/-- **A lost outcome is surfaced as an unknown effect exactly when the executor had not
acknowledged.** On every healthy store, in every run of the world, for every call that has
ended after it could not record the outcome of a turn that had invoked the executor. -/
theorem lost_outcome_surfaced_iff (S : HealthyStore) (K : Kernel S.State)
    (hK : K.outbox.port = S.port) (journal : Journal) (store : S.State) (labels : List Label)
    (i k : Nat) (result : TurnResult) (c : Candidate) (call : ExecutorCall) :
    let w := run (World.step K) (World.fresh journal store) labels
    LostOutcome w i k result → ⟨k, .execute c call⟩ ∈ w.process.engine.trace →
      ∃ key, result.dispatchDedupeKey = some key ∧
        (HasState (S.view w.process.engine.store) key .unknownEffect ↔
          ∃ a, ⟨k, .executed c a⟩ ∈ w.process.engine.trace ∧ Acknowledges a false) := by
  intro w hlost hexecute
  obtain ⟨acting, htold⟩ := hlost.told
  obtain ⟨t, ht, hreturned⟩ := turnsTold_run K journal store labels i acting k result htold
  have hbooks := (books_run hK journal store labels).turns k t ht
  rw [hreturned] at hbooks
  obtain ⟨a, hexecuted⟩ := hbooks.recorded.executed_of_execute (mem_historyOf.mpr hexecute)
  obtain ⟨hkey, b, hb, hleft⟩ := hbooks.concluded result c a rfl hexecuted
  refine ⟨c.policyKey K.digest, hkey, ?_⟩
  rw [hleft.unknown_iff]
  constructor
  · intro hfalse
    subst hfalse
    exact ⟨a, mem_historyOf.mp hexecuted, hb⟩
  · intro hunacknowledged
    obtain ⟨a', ha', hno⟩ := hunacknowledged
    obtain rfl := hbooks.recorded.executed_once hexecuted (mem_historyOf.mpr ha')
    exact hb.unique hno

/-- The turn of the sample commit ends, its outcome cannot be appended, and the handler runs
to its end. -/
def Sample.losing (answer : Awaited ExecuteResult) : List Label :=
  turned answer ++ failing 1 ++ awaits 1 4

theorem Sample.losing_run (answer : Awaited ExecuteResult) : processing kernel (losing answer) =
    run (World.step kernel) (processing kernel (turned answer ++ failing 1)) (awaits 1 4) := by
  have hlabels : Label.call (.processActionCommit actionCommit) :: losing answer =
      .call (.processActionCommit actionCommit) :: (turned answer ++ failing 1) ++ awaits 1 4 := rfl
  unfold processing
  rw [hlabels, run_append]

/-- What was served up to the failed append is still in the trace at the end. -/
theorem Sample.mem_losing {answer : Awaited ExecuteResult} {note : Tagged Nat Note}
    (h : note ∈ (processing kernel (turned answer ++ failing 1)).trace) :
    note ∈ (processing kernel (losing answer)).trace :=
  losing_run answer ▸ mem_trace_run kernel h (awaits 1 4)

/-- And so is what the turn did. -/
theorem Sample.mem_losing_turn {answer : Awaited ExecuteResult} {o : Observation}
    (h : o ∈ (processing kernel (turned answer ++ failing 1)).process.engine.trace) :
    o ∈ (processing kernel (losing answer)).process.engine.trace :=
  losing_run answer ▸ mem_engineTrace_run kernel h (awaits 1 4)

/-- The outcome of an execution that was not acknowledged is surfaced. -/
theorem unacknowledged_outcome_surfaced :
    ∃ result key, LostOutcome (Sample.processing Sample.kernel (Sample.losing Sample.unacknowledged))
        1 0 result ∧ result.dispatchDedupeKey = some key ∧
      HasState (InMemoryDedupeStore.view (Sample.processing Sample.kernel
        (Sample.losing Sample.unacknowledged)).process.engine.store) key .unknownEffect := by
  have hlost : ∃ result, LostOutcome
      (Sample.processing Sample.kernel (Sample.losing Sample.unacknowledged)) 1 0 result :=
    ⟨_, ⟨_, Sample.mem_losing (List.mem_of_getElem? (i := 5) rfl)⟩,
      ⟨_, _, Sample.mem_losing (List.mem_of_getElem? (i := 6) rfl), .outcome⟩,
      ⟨.error (.exception ⟨.runtimeError, "down"⟩), Status.ended_of_ended? (by decide +kernel)⟩⟩
  have hexecuted : ∃ c call a,
      ⟨0, .execute c call⟩ ∈ (Sample.processing Sample.kernel
        (Sample.losing Sample.unacknowledged)).process.engine.trace ∧
      ⟨0, .executed c a⟩ ∈ (Sample.processing Sample.kernel
        (Sample.losing Sample.unacknowledged)).process.engine.trace ∧ Acknowledges a false :=
    ⟨_, _, _, Sample.mem_losing_turn (List.mem_of_getElem? (i := 4) rfl),
      Sample.mem_losing_turn (List.mem_of_getElem? (i := 5) rfl), ⟨_, rfl, rfl⟩⟩
  obtain ⟨result, hlost⟩ := hlost
  obtain ⟨c, call, a, hexecute, hexecuted, ha⟩ := hexecuted
  have hiff := lost_outcome_surfaced_iff InMemoryDedupeStore.healthy Sample.kernel rfl
    Journal.empty Dict.empty (Sample.written ++ .call (.processActionCommit Sample.actionCommit) ::
      Sample.losing Sample.unacknowledged) 1 0 result c call
  have hprocessed : Sample.processing Sample.kernel (Sample.losing Sample.unacknowledged) =
      run (World.step Sample.kernel) (World.fresh Journal.empty Dict.empty)
        (Sample.written ++ .call (.processActionCommit Sample.actionCommit) ::
          Sample.losing Sample.unacknowledged) := (run_append _ _ _ _).symm
  rw [hprocessed] at hlost hexecute hexecuted ⊢
  obtain ⟨key, hkey, hiff⟩ := hiff hlost hexecute
  exact ⟨result, key, hlost, hkey, hiff.mpr ⟨a, hexecuted, ha⟩⟩

/-- The outcome of an acknowledged execution is lost, and its record stays acknowledged. -/
theorem acknowledged_outcome_not_surfaced :
    ∃ result key, LostOutcome
        (Sample.processing Sample.kernel (Sample.losing Turns.Sample.acknowledged)) 1 0 result ∧
      (∃ c call, ⟨0, .execute c call⟩ ∈ (Sample.processing Sample.kernel
        (Sample.losing Turns.Sample.acknowledged)).process.engine.trace) ∧
      result.dispatchDedupeKey = some key ∧
      ¬ HasState (InMemoryDedupeStore.view (Sample.processing Sample.kernel
        (Sample.losing Turns.Sample.acknowledged)).process.engine.store) key .unknownEffect := by
  refine ⟨_, _, ⟨⟨_, Sample.mem_losing (List.mem_of_getElem? (i := 5) rfl)⟩,
    ⟨_, _, Sample.mem_losing (List.mem_of_getElem? (i := 6) rfl), .outcome⟩,
    ⟨.error (.exception ⟨.runtimeError, "down"⟩), Status.ended_of_ended? (by decide +kernel)⟩⟩,
    ⟨_, _, Sample.mem_losing_turn (List.mem_of_getElem? (i := 4) rfl)⟩, rfl, ?_⟩
  decide +kernel

end AgentKernel.Workflow
