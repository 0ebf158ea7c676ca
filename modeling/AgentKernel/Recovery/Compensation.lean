import AgentKernel.Dedupe.Healthy
import AgentKernel.Lib.Run

/-! The compensation registry.

`execute` reserves a slot of the dedupe store under a key made of the effect class and the
action id, runs the handler until an attempt completes or the attempts are used up, and moves
the record accordingly. Calls may overlap: whatever a handler does ends its call's wait.

A slot that is found reserved counts as a compensation that has been done.
`compensation_honest_iff` says exactly when that is the truth. -/
namespace AgentKernel.Recovery
open Lib Dedupe

/-! ### The registry -/

/-- What is registered for an effect class; what the handler does is up to the run. -/
structure CompensationEntry where
  effectClass : String
  description : String := ""
  timeoutMs : Int := 30000
  maxAttempts : Int := 2
  backoffBaseMs : Int := 1000

abbrev CompensationRegistry := Dict String CompensationEntry

def CompensationRegistry.register (registry : CompensationRegistry) (entry : CompensationEntry) :
    CompensationRegistry :=
  registry.set entry.effectClass entry

/-- It names no run. -/
def generateCompensationKey (effectClass actionId : String) : String :=
  "compensation:" ++ effectClass ++ ":" ++ actionId

def compensationKey (action : Action) : String :=
  generateCompensationKey action.effectClass.text action.actionId

def compensationEnvelope (action : Action) : IdempotencyEnvelope where
  dispatchIdempotencyKey := compensationKey action
  operationFingerprint := compensationKey action
  attemptSeq := 1
  effectScope := action.effectClass.text
  capabilitySnapshotHash := "compensation"
  hostKind := .localProcess

/-! ### One call -/

/-- How an invocation of a handler ends. -/
inductive HandlerEnd where
  | completed
  | timedOut
  /-- It raised `TransientCompensationError`. -/
  | transient
  /-- It raised anything else. -/
  | failed
  deriving DecidableEq, Repr

/-- How far a call of `execute` is. -/
inductive Progress where
  | invoking (entry : CompensationEntry) (attempt : Nat)
  | sleeping (entry : CompensationEntry) (attempt : Nat)
  | returned (answer : Bool)
  | raised (error : PyError)

def compensationExhausted (action : Action) (maxAttempts : Int) : PyError :=
  ⟨.other "CompensationExhaustedError", "compensation attempts exhausted effect_class=" ++
    action.effectClass.text ++ " action_id=" ++ action.actionId ++ " attempts=" ++ toString maxAttempts⟩

section
variable {σ : Type} (S : DedupeStorePort σ)

/-- Whether the slot was free. -/
def claimSlot (action : Action) : Call PyError σ Bool := do
  let reservation ← S.reserve (compensationEnvelope action)
  if reservation.accepted then
    S.markDispatched (compensationKey action) none
    pure true
  else
    pure false

/-- After the last attempt. -/
def giveUp (action : Action) (entry : CompensationEntry) (raiseOnFailure : Bool) :
    Call PyError σ Progress := do
  Call.suppress (S.markUnknownEffect (compensationKey action))
  if raiseOnFailure then pure (.raised (compensationExhausted action entry.maxAttempts))
  else pure (.returned false)

def afterAttempt (action : Action) (entry : CompensationEntry) (raiseOnFailure : Bool)
    (attempt : Nat) : HandlerEnd → Call PyError σ Progress
  | .completed =>
    tryCatch (do
      S.markAcknowledged (compensationKey action) none
      pure (.returned true)) (fun _ => giveUp S action entry raiseOnFailure)
  | .timedOut | .transient =>
    if entry.maxAttempts ≤ attempt then giveUp S action entry raiseOnFailure
    else pure (.sleeping entry attempt)
  | .failed => giveUp S action entry raiseOnFailure

/-- The head of the loop. -/
def nextAttempt (action : Action) (entry : CompensationEntry) (raiseOnFailure : Bool)
    (attempt : Nat) : Call PyError σ Progress :=
  if attempt < max entry.maxAttempts 1 then pure (.invoking entry (attempt + 1))
  else giveUp S action entry raiseOnFailure

end

/-! ### Calls that share a store -/

structure Execution where
  action : Action
  raiseOnFailure : Bool
  /-- The call reserved the slot of its key. -/
  granted : Bool
  progress : Progress

structure Compensations (σ : Type) where
  registry : CompensationRegistry
  store : σ
  executions : Dict Nat Execution := .empty
  /-- The actions for which a handler has completed. -/
  completed : List Action := []

inductive CompensationStep where
  | register (entry : CompensationEntry)
  /-- A new call, named `i`. -/
  | execute (i : Nat) (action : Action) (raiseOnFailure : Bool)
  /-- The handler that call `i` waits for ends. -/
  | handlerEnds (i : Nat) (how : HandlerEnd)
  | wakes (i : Nat)
  | cancel (i : Nat)

namespace Compensations
variable {σ : Type} (S : DedupeStorePort σ)

/-- Call `i` is where `x` says. -/
def put (w : Compensations σ) (i : Nat) (store : σ) (x : Execution) : Compensations σ :=
  { w with store := store, executions := w.executions.set i x }

/-- Call `i` goes on to where the code takes it. -/
def advance (w : Compensations σ) (i : Nat) (x : Execution) (code : Call PyError σ Progress) :
    Compensations σ :=
  match code w.store with
  | .ok progress store => w.put i store { x with progress := progress }
  | .error e store => w.put i store { x with progress := .raised e }

def execute (w : Compensations σ) (i : Nat) (action : Action) (raiseOnFailure : Bool) :
    Compensations σ :=
  match w.registry.get? action.effectClass.text with
  | none => w.put i w.store ⟨action, raiseOnFailure, false, .returned false⟩
  | some entry =>
    match claimSlot S action w.store with
    | .ok true store => w.put i store ⟨action, raiseOnFailure, true, .invoking entry 1⟩
    | .ok false store => w.put i store ⟨action, raiseOnFailure, false, .returned true⟩
    | .error e store => w.put i store ⟨action, raiseOnFailure, false, .raised e⟩

def handlerEnds (w : Compensations σ) (i : Nat) (x : Execution) (how : HandlerEnd) :
    Compensations σ :=
  match x.progress with
  | .invoking entry attempt =>
    let w := if how = .completed then { w with completed := w.completed ++ [x.action] } else w
    w.advance i x (afterAttempt S x.action entry x.raiseOnFailure attempt how)
  | _ => w

def wakes (w : Compensations σ) (i : Nat) (x : Execution) : Compensations σ :=
  match x.progress with
  | .sleeping entry attempt => w.advance i x (nextAttempt S x.action entry x.raiseOnFailure attempt)
  | _ => w

/-- A cancelled call marks nothing. -/
def cancel (w : Compensations σ) (i : Nat) (x : Execution) : Compensations σ :=
  match x.progress with
  | .invoking _ _ | .sleeping _ _ => w.advance i x (pure (.raised cancelledError))
  | _ => w

def next (w : Compensations σ) : CompensationStep → Compensations σ
  | .register entry => { w with registry := w.registry.register entry }
  | .execute i action raiseOnFailure =>
    match w.executions.get? i with
    | some _ => w
    | none => w.execute S i action raiseOnFailure
  | .handlerEnds i how =>
    match w.executions.get? i with
    | some x => w.handlerEnds S i x how
    | none => w
  | .wakes i =>
    match w.executions.get? i with
    | some x => w.wakes S i x
    | none => w
  | .cancel i =>
    match w.executions.get? i with
    | some x => w.cancel i x
    | none => w

end Compensations

/-! ### Keys -/

/-- The part of an action's identity that its key keeps. -/
theorem compensationKey_inj {a b : Action} :
    compensationKey a = compensationKey b ↔ a.effectClass = b.effectClass ∧ a.actionId = b.actionId := by
  constructor
  · intro h
    have plain : ∀ c : EffectClass, ':' ∉ c.text.toList := by
      intro c
      cases c <;> decide
    have hkeys : a.effectClass.text.toList ++ ':' :: a.actionId.toList =
        b.effectClass.text.toList ++ ':' :: b.actionId.toList := by
      simpa [compensationKey, generateCompensationKey, String.toList_append] using
        congrArg String.toList h
    obtain ⟨hclass, hid⟩ := Text.prepend_separator_inj (plain _) (plain _) hkeys
    refine ⟨?_, String.toList_inj.mp hid⟩
    have hdistinct : ∀ c d : EffectClass, c.text.toList = d.text.toList → c = d := by
      intro c d
      cases c <;> cases d <;> decide
    exact hdistinct _ _ hclass
  · rintro ⟨hclass, hid⟩
    rw [compensationKey, compensationKey, hclass, hid]

/-! ### What the store shows of a call -/

/-- The state of the record of a call that was granted its slot. -/
def Progress.Shows : Progress → DedupeState → Prop
  | .invoking _ _, state | .sleeping _ _, state => state = .dispatched
  | .returned true, state => state = .acknowledged
  | .returned false, state => state = .unknownEffect
  | .raised _, state => state ≠ .acknowledged

theorem Progress.Shows.returned_true_iff {p : Progress} {state : DedupeState} (h : p.Shows state) :
    state = .acknowledged ↔ p = .returned true := by
  cases p with
  | invoking _ _ | sleeping _ _ =>
    obtain rfl : state = .dispatched := h
    exact iff_of_false (by decide) (by simp)
  | returned answer =>
    cases answer with
    | true => exact iff_of_true h rfl
    | false =>
      obtain rfl : state = .unknownEffect := h
      exact iff_of_false (by decide) (by simp)
  | raised e => exact iff_of_false h (by simp)

/-- The call waits for a handler or for its next attempt. -/
def Progress.AtWork : Progress → Prop
  | .invoking _ _ | .sleeping _ _ => True
  | _ => False

section
variable {S : HealthyStore} {s : S.State} {action : Action} {entry : CompensationEntry} {raises : Bool}
  {r : DedupeRecord}

/-- A free slot is claimed, and its record made. -/
theorem claimSlot_free (h : S.view s (compensationKey action) = none) :
    ∃ s' r, claimSlot S.port action s = .ok true s' ∧ r.state = .dispatched ∧
      S.view s' = (S.view s).put (compensationKey action) r := by
  obtain ⟨s₁, s₂, r, hreserve, hmark, hstate, hview⟩ := HealthyStore.reserve_markDispatched_eval
    (show S.view s (compensationEnvelope action).dispatchIdempotencyKey = none from h)
  refine ⟨s₂, r, ?_, hstate, hview⟩
  rw [claimSlot, Call.bind_apply, hreserve]
  show (S.port.markDispatched (compensationKey action) none >>= fun _ => pure true) s₁ = _
  rw [Call.bind_apply, show S.port.markDispatched (compensationKey action) none s₁ = .ok () s₂ from hmark]
  rfl

/-- A reserved slot is left alone. -/
theorem claimSlot_reserved (h : S.view s (compensationKey action) = some r) :
    ∃ s', claimSlot S.port action s = .ok false s' ∧ S.view s' = S.view s := by
  obtain ⟨s', hreserve, hview⟩ := HealthyStore.reserve_present
    (show S.view s (compensationEnvelope action).dispatchIdempotencyKey = some r from h)
  refine ⟨s', ?_, hview⟩
  rw [claimSlot, Call.bind_apply, hreserve]
  rfl

/-- What a step of a call that holds its slot does: the record shows where the call has got to,
and no other record moves. -/
def Moves (S : HealthyStore) (s : S.State) (key : String) (code : Call PyError S.State Progress)
    (Q : Progress → Prop) : Prop :=
  ∃ p s' r, code s = .ok p s' ∧ Q p ∧ p.Shows r.state ∧ S.view s' = (S.view s).put key r

variable (entry raises) in
theorem giveUp_moves (hr : S.view s (compensationKey action) = some r) (hstate : r.state = .dispatched) :
    Moves S s (compensationKey action) (giveUp S.port action entry raises) (· ≠ .returned true) := by
  obtain ⟨s', hmark, hview⟩ := HealthyStore.markUnknownEffect_eval hr hstate
  have hsuppress : (Call.suppress (S.port.markUnknownEffect (compensationKey action))) s = .ok () s' := by
    rw [Call.suppress, Call.tryCatch_apply, hmark]
  unfold Moves giveUp
  rw [Call.bind_apply, hsuppress]
  cases raises with
  | true =>
    exact ⟨_, s', r.moved .unknownEffect none none, rfl, by simp, DedupeState.noConfusion, hview⟩
  | false => exact ⟨_, s', r.moved .unknownEffect none none, rfl, by simp, rfl, hview⟩

/-- A call that changes nothing keeps its record. -/
theorem moves_pure (hr : S.view s (compensationKey action) = some r) {p : Progress}
    (hp : p.Shows r.state) {Q : Progress → Prop} (hq : Q p) :
    Moves S s (compensationKey action) (pure p) Q := by
  refine ⟨p, s, r, rfl, hq, hp, ?_⟩
  rw [Ledger.put, ← hr]
  exact (Function.update_eq_self _ _).symm

variable (entry raises) in
/-- **An attempt ends in a success exactly when the handler completed.** -/
theorem afterAttempt_moves (hr : S.view s (compensationKey action) = some r)
    (hstate : r.state = .dispatched) (attempt : Nat) (how : HandlerEnd) :
    Moves S s (compensationKey action) (afterAttempt S.port action entry raises attempt how)
      (fun p => p = .returned true ↔ how = .completed) := by
  have lost : how ≠ .completed → Moves S s (compensationKey action) (giveUp S.port action entry raises)
      (fun p => p = .returned true ↔ how = .completed) := by
    intro hne
    obtain ⟨p, s', r', hcode, hp, hmoves⟩ := giveUp_moves entry raises hr hstate
    exact ⟨p, s', r', hcode, iff_of_false hp hne, hmoves⟩
  have again : how ≠ .completed → Moves S s (compensationKey action)
      (if entry.maxAttempts ≤ attempt then giveUp S.port action entry raises
        else pure (.sleeping entry attempt))
      (fun p => p = .returned true ↔ how = .completed) := by
    intro hne
    split
    · exact lost hne
    · exact moves_pure (p := .sleeping entry attempt) hr hstate (iff_of_false (by simp) hne)
  cases how with
  | completed =>
    obtain ⟨s', hmark, hview⟩ := HealthyStore.markAcknowledged_eval hr hstate
    refine ⟨.returned true, s', r.moved .acknowledged none none, ?_, iff_of_true rfl rfl, rfl, hview⟩
    rw [afterAttempt, Call.tryCatch_apply, Call.bind_apply, hmark]
    rfl
  | timedOut => exact again (by decide)
  | transient => exact again (by decide)
  | failed => exact lost (by decide)

variable (entry raises) in
theorem nextAttempt_moves (hr : S.view s (compensationKey action) = some r)
    (hstate : r.state = .dispatched) (attempt : Nat) :
    Moves S s (compensationKey action) (nextAttempt S.port action entry raises attempt)
      (· ≠ .returned true) := by
  unfold nextAttempt
  split
  · exact moves_pure (p := .invoking entry (attempt + 1)) hr hstate (by simp)
  · exact giveUp_moves entry raises hr hstate

end

/-! ### Calls that overlap -/

/-- The identity of an action of a run. -/
def SameAction (a b : Action) : Prop :=
  a.runId = b.runId ∧ a.actionId = b.actionId ∧ a.effectClass = b.effectClass

namespace Compensations
variable {S : HealthyStore}

/-- Whoever was told that the action is compensated was told the truth. -/
def Honest (w : Compensations S.State) : Prop :=
  ∀ i x, w.executions.get? i = some x → x.progress = .returned true →
    ∃ a ∈ w.completed, SameAction a x.action

/-- No two handlers completed under one key. -/
def OncePerKey (w : Compensations S.State) : Prop := (w.completed.map compensationKey).Nodup

/-- A slot that a new call finds reserved is acknowledged, and was reserved by a call for the
same run. -/
def Clear (w : Compensations S.State) : CompensationStep → Prop
  | .execute i action _ =>
    w.executions.get? i = none → w.registry.get? action.effectClass.text ≠ none →
      ∀ r, S.view w.store (compensationKey action) = some r → r.state = .acknowledged ∧
        ∃ j x, w.executions.get? j = some x ∧ x.granted = true ∧
          compensationKey x.action = compensationKey action ∧ x.action.runId = action.runId
  | _ => True

/-- How calls, records and completed handlers hang together. -/
structure Tracked (w : Compensations S.State) : Prop where
  shown : ∀ i x, w.executions.get? i = some x → x.granted = true →
    ∃ r, S.view w.store (compensationKey x.action) = some r ∧ x.progress.Shows r.state
  held : ∀ action r, S.view w.store (compensationKey action) = some r →
    ∃ i x, w.executions.get? i = some x ∧ x.granted = true ∧
      compensationKey x.action = compensationKey action
  alone : ∀ i j x y, w.executions.get? i = some x → w.executions.get? j = some y →
    x.granted = true → y.granted = true → compensationKey x.action = compensationKey y.action → i = j
  atWork : ∀ i x, w.executions.get? i = some x → x.progress.AtWork → x.granted = true
  told : ∀ i x, w.executions.get? i = some x → x.granted = true → x.progress = .returned true →
    x.action ∈ w.completed
  done : ∀ a ∈ w.completed, ∃ i x, w.executions.get? i = some x ∧ x.granted = true ∧
    x.progress = .returned true ∧ x.action = a
  once : (w.completed.map compensationKey).Nodup

theorem Tracked.start (registry : CompensationRegistry) {store : S.State}
    (fresh : ∀ action, S.view store (compensationKey action) = none) :
    Tracked (S := S) ⟨registry, store, .empty, []⟩ where
  shown := fun _ _ hx => nomatch hx
  held := fun action r hr => by
    rw [fresh] at hr
    cases hr
  alone := fun _ _ _ _ hx => nomatch hx
  atWork := fun _ _ hx => nomatch hx
  told := fun _ _ hx => nomatch hx
  done := fun _ ha => absurd ha List.not_mem_nil
  once := List.nodup_nil

/-- A new call without a slot of its own, whatever it returned. -/
theorem Tracked.put_ungranted {w : Compensations S.State} (h : Tracked w) {i : Nat} {store : S.State}
    {x : Execution} (new : w.executions.get? i = none) (hview : S.view store = S.view w.store)
    (hx : x.granted = false) (idle : ¬ x.progress.AtWork) : Tracked (w.put i store x) := by
  have old : ∀ j y, (w.put i store x).executions.get? j = some y → y.granted = true →
      w.executions.get? j = some y := by
    intro j y hy hgranted
    rcases Dict.get?_set_some hy with ⟨_, rfl⟩ | ⟨_, hy⟩
    · rw [hx] at hgranted
      cases hgranted
    · exact hy
  have still : ∀ j y, w.executions.get? j = some y →
      (w.put i store x).executions.get? j = some y := by
    intro j y hy
    have hne : j ≠ i := by
      rintro rfl
      rw [new] at hy
      cases hy
    exact (Dict.get?_set ..).trans ((if_neg hne).trans hy)
  constructor
  case shown =>
    intro j y hy hgranted
    obtain ⟨r, hr, hshows⟩ := h.shown j y (old j y hy hgranted) hgranted
    exact ⟨r, (congrFun hview _).trans hr, hshows⟩
  case held =>
    intro action r hr
    obtain ⟨j, y, hy, hgranted, hkey⟩ := h.held action r ((congrFun hview _).symm.trans hr)
    exact ⟨j, y, still j y hy, hgranted, hkey⟩
  case alone =>
    intro j k y z hy hz hgy hgz hkey
    exact h.alone j k y z (old j y hy hgy) (old k z hz hgz) hgy hgz hkey
  case atWork =>
    intro j y hy hwork
    rcases Dict.get?_set_some hy with ⟨_, rfl⟩ | ⟨_, hy⟩
    · exact absurd hwork idle
    · exact h.atWork j y hy hwork
  case told =>
    intro j y hy hgranted htrue
    exact h.told j y (old j y hy hgranted) hgranted htrue
  case done =>
    intro a ha
    obtain ⟨j, y, hy, hrest⟩ := h.done a ha
    exact ⟨j, y, still j y hy, hrest⟩
  case once => exact h.once

/-- No completed handler is forgotten. -/
theorem mem_of_gains {before after : List Action} {a last : Action} {P Q : Prop}
    (h : after = before ++ [last] ∧ P ∨ after = before ∧ Q) (ha : a ∈ before) : a ∈ after := by
  rcases h with ⟨rfl, _⟩ | ⟨rfl, _⟩
  · exact List.mem_append_left _ ha
  · exact ha

/-- A call that holds its slot, new or a step further; `completed` gains its action when it has
succeeded. -/
theorem Tracked.put_granted {w : Compensations S.State} (h : Tracked w) {i : Nat} {store : S.State}
    {x : Execution} {r : DedupeRecord} {completed : List Action} (hx : x.granted = true)
    (before : ∀ y, w.executions.get? i = some y → y.progress ≠ .returned true ∧ y.action = x.action)
    (others : ∀ j y, w.executions.get? j = some y → y.granted = true →
      compensationKey y.action = compensationKey x.action → j = i)
    (hview : S.view store = (S.view w.store).put (compensationKey x.action) r)
    (hshows : x.progress.Shows r.state)
    (hcompleted : completed = w.completed ++ [x.action] ∧ x.progress = .returned true ∨
      completed = w.completed ∧ x.progress ≠ .returned true) :
    Tracked (S := S) ⟨w.registry, store, w.executions.set i x, completed⟩ := by
  have hput : ∀ key, S.view store key =
      if key = compensationKey x.action then some r else S.view w.store key := by
    intro key
    rw [hview, Ledger.put_apply]
  have here : (w.executions.set i x).get? i = some x := (Dict.get?_set ..).trans (if_pos rfl)
  have there : ∀ j y, w.executions.get? j = some y → j ≠ i →
      (w.executions.set i x).get? j = some y :=
    fun j y hy hne => (Dict.get?_set ..).trans ((if_neg hne).trans hy)
  have apart : ∀ j y, w.executions.get? j = some y → y.granted = true → j ≠ i →
      compensationKey y.action ≠ compensationKey x.action :=
    fun j y hy hgranted hne hkey => hne (others j y hy hgranted hkey)
  -- a handler that completed earlier did so for another call
  have elsewhere : ∀ a ∈ w.completed, ∃ j y, w.executions.get? j = some y ∧ j ≠ i ∧
      y.granted = true ∧ y.progress = .returned true ∧ y.action = a := by
    intro a ha
    obtain ⟨j, y, hy, hgranted, htrue, haction⟩ := h.done a ha
    refine ⟨j, y, hy, ?_, hgranted, htrue, haction⟩
    rintro rfl
    exact (before y hy).1 htrue
  constructor
  case shown =>
    intro j y hy hgranted
    rcases Dict.get?_set_some hy with ⟨_, rfl⟩ | ⟨hne, hy⟩
    · exact ⟨r, (hput _).trans (if_pos rfl), hshows⟩
    · obtain ⟨r', hr', hshows'⟩ := h.shown j y hy hgranted
      exact ⟨r', (hput _).trans ((if_neg (apart j y hy hgranted hne)).trans hr'), hshows'⟩
  case held =>
    intro action r' hr'
    replace hr' := (hput _).symm.trans hr'
    split at hr'
    case isTrue hkey => exact ⟨i, x, here, hx, hkey.symm⟩
    case isFalse hkey =>
      obtain ⟨j, y, hy, hgranted, hsame⟩ := h.held action r' hr'
      by_cases hne : j = i
      · subst hne
        rw [(before y hy).2] at hsame
        exact absurd hsame.symm hkey
      · exact ⟨j, y, there j y hy hne, hgranted, hsame⟩
  case alone =>
    intro j k y z hfoundy hfoundz hgy hgz hkey
    rcases Dict.get?_set_some hfoundy with ⟨hj, rfl⟩ | ⟨hj, hy⟩ <;>
      rcases Dict.get?_set_some hfoundz with ⟨hk, rfl⟩ | ⟨hk, hz⟩
    · rw [hj, hk]
    · exact absurd hkey.symm (apart k z hz hgz hk)
    · exact absurd hkey (apart j y hy hgy hj)
    · exact h.alone j k y z hy hz hgy hgz hkey
  case atWork =>
    intro j y hy hwork
    rcases Dict.get?_set_some hy with ⟨_, rfl⟩ | ⟨_, hy⟩
    · exact hx
    · exact h.atWork j y hy hwork
  case told =>
    intro j y hy hgranted htrue
    rcases Dict.get?_set_some hy with ⟨_, rfl⟩ | ⟨_, hy⟩
    · rcases hcompleted with ⟨rfl, _⟩ | ⟨_, hfalse⟩
      · exact List.mem_append_right _ List.mem_cons_self
      · exact absurd htrue hfalse
    · exact mem_of_gains hcompleted (h.told j y hy hgranted htrue)
  case done =>
    intro a ha
    have hcases : a ∈ w.completed ∨ a = x.action ∧ x.progress = .returned true := by
      rcases hcompleted with ⟨rfl, htrue⟩ | ⟨rfl, _⟩
      · rcases List.mem_append.mp ha with ha | ha
        · exact .inl ha
        · exact .inr ⟨List.mem_singleton.mp ha, htrue⟩
      · exact .inl ha
    rcases hcases with ha | ⟨rfl, htrue⟩
    · obtain ⟨j, y, hy, hne, hrest⟩ := elsewhere a ha
      exact ⟨j, y, there j y hy hne, hrest⟩
    · exact ⟨i, x, here, hx, htrue, rfl⟩
  case once =>
    rcases hcompleted with ⟨rfl, _⟩ | ⟨rfl, _⟩
    · rw [List.map_append, List.map_singleton]
      refine List.nodup_append.mpr ⟨h.once, List.nodup_singleton _, ?_⟩
      intro key hkey key' hkey' heq
      obtain ⟨a, ha, rfl⟩ := List.mem_map.mp hkey
      obtain ⟨j, y, hy, hne, hgranted, _, rfl⟩ := elsewhere a ha
      exact apart j y hy hgranted hne (heq.trans (List.mem_singleton.mp hkey'))
    · exact h.once

/-- Only calls that hold a slot have gone on, and no completed handler is forgotten. -/
structure Continues (w w' : Compensations S.State) : Prop where
  calls : ∀ i x, w'.executions.get? i = some x → x.granted = true ∨ w.executions.get? i = some x
  completed : ∀ a ∈ w.completed, a ∈ w'.completed

theorem Continues.refl (w : Compensations S.State) : Continues w w :=
  ⟨fun _ _ hx => .inr hx, fun _ ha => ha⟩

theorem Continues.advance {w : Compensations S.State} {i : Nat} {x : Execution}
    (hx : x.granted = true) (code : Call PyError S.State Progress) {completed : List Action}
    (hcompleted : ∀ a ∈ w.completed, a ∈ completed) :
    Continues w (({ w with completed := completed } : Compensations S.State).advance i x code) := by
  unfold Compensations.advance
  cases code w.store with
  | ok p store =>
    refine ⟨fun j y hy => ?_, hcompleted⟩
    rcases Dict.get?_set_some hy with ⟨_, rfl⟩ | ⟨_, hy⟩
    · exact .inl hx
    · exact .inr hy
  | error e store =>
    refine ⟨fun j y hy => ?_, hcompleted⟩
    rcases Dict.get?_set_some hy with ⟨_, rfl⟩ | ⟨_, hy⟩
    · exact .inl hx
    · exact .inr hy

/-- Where a call at work is taken, everything still hangs together: the call returns `True` exactly
when its handler has just completed. -/
theorem Tracked.advance {w : Compensations S.State} (h : Tracked w) {i : Nat} {x : Execution}
    (hx : w.executions.get? i = some x) (hwork : x.progress.AtWork)
    {code : Call PyError S.State Progress} (succeeds : Prop) (completed : List Action)
    (moves : ∀ r, S.view w.store (compensationKey x.action) = some r → r.state = .dispatched →
      Moves S w.store (compensationKey x.action) code (fun p => p = .returned true ↔ succeeds))
    (hcompleted : completed = w.completed ++ [x.action] ∧ succeeds ∨
      completed = w.completed ∧ ¬ succeeds) :
    Tracked (S := S) (({ w with completed := completed } : Compensations S.State).advance i x code) ∧
      Continues w (({ w with completed := completed } : Compensations S.State).advance i x code) := by
  have hgranted := h.atWork i x hx hwork
  obtain ⟨r, hr, hshows⟩ := h.shown i x hx hgranted
  have hstate : r.state = .dispatched := by
    cases hp : x.progress with
    | invoking entry attempt | sleeping entry attempt =>
      rw [hp] at hshows
      exact hshows
    | returned answer | raised e =>
      rw [hp] at hwork
      exact hwork.elim
  have hpending : x.progress ≠ .returned true := by
    intro heq
    rw [heq] at hwork
    exact hwork
  refine ⟨?_, .advance hgranted code (fun a ha => mem_of_gains hcompleted ha)⟩
  obtain ⟨p, store, r', hcode, hp, hshows', hview⟩ := moves r hr hstate
  unfold Compensations.advance
  dsimp only
  rw [hcode]
  refine h.put_granted (x := { x with progress := p }) hgranted ?_ ?_ hview hshows' ?_
  · intro y hy
    rw [hx] at hy
    obtain rfl := Option.some.inj hy
    exact ⟨hpending, rfl⟩
  · intro j y hy hgy hkey
    exact h.alone j i y x hy hx hgy hgranted hkey
  · exact hcompleted.imp (fun hc => ⟨hc.1, hp.mpr hc.2⟩) (fun hc => ⟨hc.1, fun ht => hc.2 (hp.mp ht)⟩)

theorem Tracked.handlerEnds {w : Compensations S.State} (h : Tracked w) {i : Nat} {x : Execution}
    (hx : w.executions.get? i = some x) (how : HandlerEnd) :
    Tracked (w.handlerEnds S.port i x how) ∧ Continues w (w.handlerEnds S.port i x how) := by
  unfold Compensations.handlerEnds
  cases hp : x.progress with
  | invoking entry attempt =>
    have hwork : x.progress.AtWork := by
      rw [hp]
      exact trivial
    have moves : ∀ r, S.view w.store (compensationKey x.action) = some r → r.state = .dispatched → _ :=
      fun r hr hstate => afterAttempt_moves entry x.raiseOnFailure hr hstate attempt how
    by_cases hhow : how = .completed
    · simp only [if_pos hhow]
      exact h.advance hx hwork _ _ moves (.inl ⟨rfl, hhow⟩)
    · simp only [if_neg hhow]
      exact h.advance hx hwork _ _ moves (.inr ⟨rfl, hhow⟩)
  | sleeping entry attempt => exact ⟨h, .refl w⟩
  | returned answer => exact ⟨h, .refl w⟩
  | raised e => exact ⟨h, .refl w⟩

theorem Tracked.wakes {w : Compensations S.State} (h : Tracked w) {i : Nat} {x : Execution}
    (hx : w.executions.get? i = some x) :
    Tracked (w.wakes S.port i x) ∧ Continues w (w.wakes S.port i x) := by
  unfold Compensations.wakes
  cases hp : x.progress with
  | sleeping entry attempt =>
    refine h.advance hx (by rw [hp]; exact trivial) False w.completed ?_ (.inr ⟨rfl, id⟩)
    intro r hr hstate
    obtain ⟨p, s', r', hcode, hne, hmoves⟩ := nextAttempt_moves entry x.raiseOnFailure hr
      hstate attempt
    exact ⟨p, s', r', hcode, iff_of_false hne id, hmoves⟩
  | invoking entry attempt => exact ⟨h, .refl w⟩
  | returned answer => exact ⟨h, .refl w⟩
  | raised e => exact ⟨h, .refl w⟩

theorem Tracked.cancel {w : Compensations S.State} (h : Tracked w) {i : Nat} {x : Execution}
    (hx : w.executions.get? i = some x) : Tracked (w.cancel i x) ∧ Continues w (w.cancel i x) := by
  have cancelled : x.progress.AtWork →
      Tracked (S := S) (w.advance i x (pure (.raised cancelledError))) ∧
        Continues w (w.advance i x (pure (.raised cancelledError))) := by
    intro hwork
    refine h.advance hx hwork False w.completed ?_ (.inr ⟨rfl, id⟩)
    intro r hr hstate
    refine moves_pure hr ?_ (iff_of_false (by simp) id)
    rw [Progress.Shows, hstate]
    decide
  unfold Compensations.cancel
  cases hp : x.progress with
  | invoking entry attempt => exact cancelled (by rw [hp]; exact trivial)
  | sleeping entry attempt => exact cancelled (by rw [hp]; exact trivial)
  | returned answer => exact ⟨h, .refl w⟩
  | raised e => exact ⟨h, .refl w⟩

/-- A call that succeeds by its own handler tells the truth. -/
theorem Honest.continues {w w' : Compensations S.State} (h : Honest w) (hc : Continues w w')
    (ht : Tracked w') : Honest w' := by
  intro i x hx htrue
  rcases hc.calls i x hx with hgranted | hold
  · exact ⟨x.action, ht.told i x hx hgranted htrue, rfl, rfl, rfl⟩
  · obtain ⟨a, ha, hsame⟩ := h i x hold htrue
    exact ⟨a, hc.completed a ha, hsame⟩

/-- A new call with a slot of its own. -/
theorem Tracked.execute_free {w : Compensations S.State} (h : Tracked w) {i : Nat}
    (new : w.executions.get? i = none) {action : Action} (raises : Bool) {entry : CompensationEntry}
    (hentry : w.registry.get? action.effectClass.text = some entry)
    (free : S.view w.store (compensationKey action) = none) :
    Tracked (w.execute S.port i action raises) ∧ Continues w (w.execute S.port i action raises) := by
  obtain ⟨store, r, hclaim, hstate, hview⟩ := claimSlot_free free
  have hexecute : w.execute S.port i action raises =
      w.put i store ⟨action, raises, true, .invoking entry 1⟩ := by
    rw [Compensations.execute, hentry]
    dsimp only
    rw [hclaim]
  rw [hexecute]
  constructor
  · refine h.put_granted (x := ⟨action, raises, true, .invoking entry 1⟩) rfl ?_ ?_ hview hstate
      (.inr ⟨rfl, by simp⟩)
    · intro y hy
      rw [new] at hy
      cases hy
    · intro j y hy hgranted hkey
      obtain ⟨r', hr', _⟩ := h.shown j y hy hgranted
      rw [hkey, free] at hr'
      cases hr'
  · refine ⟨fun j y hy => ?_, fun a ha => ha⟩
    rcases Dict.get?_set_some hy with ⟨_, rfl⟩ | ⟨_, hy⟩
    · exact .inl rfl
    · exact .inr hy

/-- **A reserved slot.** The call returns `True`, and that is the truth exactly when the record is
acknowledged and the slot was reserved for the same run. -/
theorem honest_execute_reserved {w : Compensations S.State} (h : Tracked w) (honest : Honest w)
    {i : Nat} (new : w.executions.get? i = none) {action : Action} (raises : Bool)
    {entry : CompensationEntry} (hentry : w.registry.get? action.effectClass.text = some entry)
    {r : DedupeRecord} (hr : S.view w.store (compensationKey action) = some r) :
    Tracked (w.execute S.port i action raises) ∧
      (Honest (w.execute S.port i action raises) ↔ r.state = .acknowledged ∧
        ∃ j x, w.executions.get? j = some x ∧ x.granted = true ∧
          compensationKey x.action = compensationKey action ∧ x.action.runId = action.runId) := by
  obtain ⟨store, hclaim, hview⟩ := claimSlot_reserved hr
  have hexecute : w.execute S.port i action raises =
      w.put i store ⟨action, raises, false, .returned true⟩ := by
    rw [Compensations.execute, hentry]
    dsimp only
    rw [hclaim]
  rw [hexecute]
  refine ⟨h.put_ungranted new hview rfl id, ?_⟩
  constructor
  · intro honest'
    obtain ⟨a, ha, hrun, hid, hclass⟩ := honest' i _ ((Dict.get?_set ..).trans (if_pos rfl)) rfl
    obtain ⟨j, x, hx, hgranted, htrue, rfl⟩ := h.done a ha
    have hkey : compensationKey x.action = compensationKey action :=
      compensationKey_inj.mpr ⟨hclass, hid⟩
    obtain ⟨r', hr', hshows⟩ := h.shown j x hx hgranted
    rw [hkey, hr] at hr'
    obtain rfl := Option.some.inj hr'
    exact ⟨hshows.returned_true_iff.mpr htrue, j, x, hx, hgranted, hkey, hrun⟩
  · rintro ⟨hack, j, x, hx, hgranted, hkey, hrun⟩ k y hy htrue
    rcases Dict.get?_set_some hy with ⟨_, rfl⟩ | ⟨_, hy⟩
    · obtain ⟨r', hr', hshows⟩ := h.shown j x hx hgranted
      rw [hkey, hr] at hr'
      obtain rfl := Option.some.inj hr'
      obtain ⟨hclass, hid⟩ := compensationKey_inj.mp hkey
      exact ⟨x.action, h.told j x hx hgranted (hshows.returned_true_iff.mp hack), hrun, hid, hclass⟩
    · exact honest k y hy htrue

/-- **One step.** Everything still hangs together, and nobody is told a falsehood exactly when
the step was clear. -/
theorem tracked_next {w : Compensations S.State} (h : Tracked w) (honest : Honest w)
    (e : CompensationStep) : Tracked (w.next S.port e) ∧ (Honest (w.next S.port e) ↔ Clear w e) := by
  have plain : ∀ {w' : Compensations S.State} {C : Prop}, Tracked w' ∧ Continues w w' → C →
      Tracked w' ∧ (Honest w' ↔ C) :=
    fun h hC => ⟨h.1, iff_of_true (honest.continues h.2 h.1) hC⟩
  cases e with
  | register entry =>
    have ht : Tracked (w.next S.port (.register entry)) :=
      ⟨h.shown, h.held, h.alone, h.atWork, h.told, h.done, h.once⟩
    exact plain ⟨ht, fun _ _ hx => .inr hx, fun _ ha => ha⟩ trivial
  | execute i action raises =>
    cases hi : w.executions.get? i with
    | some x =>
      simp only [Compensations.next, hi]
      exact plain ⟨h, .refl w⟩ (fun hnone => by rw [hi] at hnone; cases hnone)
    | none =>
      simp only [Compensations.next, hi, Clear, true_implies]
      cases hentry : w.registry.get? action.effectClass.text with
      | none =>
        have hexecute : w.execute S.port i action raises =
            w.put i w.store ⟨action, raises, false, .returned false⟩ := by
          rw [Compensations.execute, hentry]
        rw [hexecute]
        refine ⟨h.put_ungranted hi rfl rfl id, iff_of_true ?_ (fun hne => absurd rfl hne)⟩
        intro j y hy htrue
        rcases Dict.get?_set_some hy with ⟨_, rfl⟩ | ⟨_, hy⟩
        · simp at htrue
        · exact honest j y hy htrue
      | some entry =>
        cases hr : S.view w.store (compensationKey action) with
        | none =>
          exact plain (h.execute_free hi raises hentry hr) (fun _ r hr' => nomatch hr')
        | some r =>
          obtain ⟨ht, hiff⟩ := honest_execute_reserved h honest hi raises hentry hr
          refine ⟨ht, hiff.trans ⟨fun hc _ r' hr' => ?_, fun hc => hc (by simp) r rfl⟩⟩
          obtain rfl := Option.some.inj hr'
          exact hc
  | handlerEnds i how =>
    cases hi : w.executions.get? i with
    | none =>
      simp only [Compensations.next, hi]
      exact plain ⟨h, .refl w⟩ trivial
    | some x =>
      simp only [Compensations.next, hi]
      exact plain (h.handlerEnds hi how) trivial
  | wakes i =>
    cases hi : w.executions.get? i with
    | none =>
      simp only [Compensations.next, hi]
      exact plain ⟨h, .refl w⟩ trivial
    | some x =>
      simp only [Compensations.next, hi]
      exact plain (h.wakes hi) trivial
  | cancel i =>
    cases hi : w.executions.get? i with
    | none =>
      simp only [Compensations.next, hi]
      exact plain ⟨h, .refl w⟩ trivial
    | some x =>
      simp only [Compensations.next, hi]
      exact plain (h.cancel hi) trivial

/-- Nothing has been called yet. -/
def started (registry : CompensationRegistry) (store : S.State) : Compensations S.State :=
  { registry := registry, store := store }

end Compensations

open Compensations

/-- **When compensations are reported truthfully.** No key ever has two completed handlers; and
whoever is told `True` is told the truth, throughout a run of calls on a store without
compensations, exactly when every call that finds its slot reserved finds it acknowledged and
reserved for the same run. -/
theorem compensation_honest_iff (S : HealthyStore) (registry : CompensationRegistry) {store : S.State}
    (fresh : ∀ action, S.view store (compensationKey action) = none) (steps : List CompensationStep) :
    (∀ pre, pre <+: steps →
      Honest (run (Compensations.next S.port) (started registry store) pre) ∧
        OncePerKey (run (Compensations.next S.port) (started registry store) pre)) ↔
      Along (Compensations.next S.port) Clear (started registry store) steps := by
  refine forall_prefix_iff_along (I := fun w : Compensations S.State => Honest w ∧ OncePerKey w)
    (J := fun w => Tracked w ∧ Honest w) (A := fun _ _ => True)
    (fun w hw => ⟨hw.2, hw.1.once⟩) ?_ ?_ ⟨Tracked.start registry fresh, fun _ _ hx => nomatch hx⟩
    (Along.of_forall (fun _ _ => trivial) _ _)
  · intro w e _ hw
    obtain ⟨ht, hiff⟩ := tracked_next hw.1 hw.2 e
    exact ⟨fun hh => hiff.mp hh.1, fun hc => ⟨hiff.mpr hc, ht.once⟩⟩
  · intro w e _ hw hc
    obtain ⟨ht, hiff⟩ := tracked_next hw.1 hw.2 e
    exact ⟨ht, hiff.mpr hc⟩

def writeOf (runId : String) : Action where
  actionId := "a"
  runId := runId
  actionType := "write"
  effectClass := .compensatableWrite

/-- A handler that times out once and then completes, and a second call for the same action. -/
theorem compensation_honest_retried :
    let w := run (Compensations.next InMemoryDedupeStore.port)
      (started (S := InMemoryDedupeStore.healthy) .empty .empty)
      [.register ⟨"compensatable_write", "", 30000, 2, 1000⟩, .execute 0 (writeOf "run-1") true,
        .handlerEnds 0 .timedOut, .wakes 0, .handlerEnds 0 .completed,
        .execute 1 (writeOf "run-1") true]
    Honest (S := InMemoryDedupeStore.healthy) w ∧ OncePerKey (S := InMemoryDedupeStore.healthy) w := by
  refine (compensation_honest_iff InMemoryDedupeStore.healthy .empty (fun _ => rfl) _).mpr ?_ _
    List.prefix_rfl
  refine ⟨trivial, fun _ _ r hr => ?_, trivial, trivial, trivial, fun _ _ r hr => ?_, trivial⟩
  · exact nomatch (show none = some r from hr)
  · obtain rfl := Option.some.inj hr
    exact ⟨rfl, 0, ⟨writeOf "run-1", true, true, .returned true⟩, rfl, rfl, rfl, rfl⟩

/-- The handler fails for good, the call says so, and the next call says that the action has been
compensated. -/
theorem failed_compensation_reported_done :
    ¬ Honest (S := InMemoryDedupeStore.healthy)
      (run (Compensations.next InMemoryDedupeStore.port) (started .empty .empty)
        [.register ⟨"compensatable_write", "", 30000, 2, 1000⟩, .execute 0 (writeOf "run-1") false,
          .handlerEnds 0 .failed, .execute 1 (writeOf "run-1") false]) := by
  intro honest
  obtain ⟨a, ha, _⟩ := honest 1 ⟨writeOf "run-1", false, false, .returned true⟩ rfl rfl
  exact absurd ha (List.not_mem_nil)

end AgentKernel.Recovery
