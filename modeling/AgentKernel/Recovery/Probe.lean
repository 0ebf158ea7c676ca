import Mathlib.Data.NNRat.Defs
import Mathlib.Tactic.Linarith
import AgentKernel.Lib.Run
import AgentKernel.Lib.Json
import AgentKernel.Recovery.Gate

/-! The scheduler that probes open circuits.

A sweep takes the time once, goes through the effect classes and awaits the probe of each that is
due; while it waits, failures are recorded, circuits are reset and other sweeps run. A probe that
answers `True` deletes the row of its class, whatever has been added to it since it was read, and
one that raises ends the sweep and, where the loop made the sweep, the loop. `probes_safely_iff`
says that these two are all that can go wrong. -/
namespace AgentKernel.Recovery
open Lib

/-! ### The scheduler -/

/-- `CircuitBreakerProbeScheduler`: the keys of `probe_fns`, and the policy. -/
structure ProbeScheduler where
  policy : CircuitBreakerPolicy := {}
  probeFns : List String := []

namespace ProbeScheduler
variable (P : ProbeScheduler)

/-- `_iter_effect_classes`. -/
def iterEffectClasses (rows : CircuitBreakerRows) : List String :=
  Text.sortedSet (P.probeFns ++ rows.keys)

/-- The next class that a sweep probes, and those it has after it. -/
def nextDue (rows : CircuitBreakerRows.store.State) (now : ℚ) : List String → Option (String × List String)
  | [] => none
  | effectClass :: rest =>
    if effectClass ∉ P.probeFns then nextDue rows now rest
    else
      let (count, lastFailureTs) := CircuitBreakerRows.store.getState rows effectClass
      if count < P.policy.threshold then nextDue rows now rest
      else if (now - lastFailureTs) * 1000 < P.policy.halfOpenAfterMs then nextDue rows now rest
      else some (effectClass, rest)

end ProbeScheduler

/-! ### Sweeps among failures -/

inductive ProbeEvent where
  | failed (effectClass : String) (recordedAt : ℚ)
  | reset (effectClass : String)
  /-- The sweep read the state of the class and called its probe. -/
  | probed (sweep : Nat) (effectClass : String) (startedAt : ℚ)
  | closed (sweep : Nat) (effectClass : String)
  | raised (sweep : Nat)
  /-- The sweep returned the classes it had closed. -/
  | returned (sweep : Nat) (closed : List String)
  deriving DecidableEq

/-- A `probe_once` that awaits the probe of a class. -/
structure Probing where
  now : ℚ
  effectClass : String
  rest : List String
  closed : List String

/-- The task of `start`. -/
inductive ProbeLoop where
  | absent
  | sleeping
  | sweeping (sweep : Nat)
  | done
  deriving DecidableEq

structure ProbeWorld where
  rows : CircuitBreakerRows.store.State := CircuitBreakerRows.store.empty
  clock : ℚ
  /-- What each sweep awaits, in the order they began. -/
  sweeps : List (Option Probing) := []
  loop : ProbeLoop := .absent
  /-- What has happened, newest first. -/
  trace : List ProbeEvent := []

inductive ProbeAnswer where
  | returns (probeOk : Bool)
  | raises

/-- What happens between two awaits; a sweep takes some time from one to the next. -/
inductive ProbeLabel where
  | passes (time : ℚ≥0)
  | recordFailure (effectClass : String)
  | reset (effectClass : String)
  /-- `probe_once`, called by anyone. -/
  | probeOnce (time : ℚ≥0)
  | start
  /-- The loop has slept for its interval. -/
  | wakes (time : ℚ≥0)
  /-- The loop's task is cancelled. -/
  | cancel
  | answers (sweep : Nat) (answer : ProbeAnswer) (time : ℚ≥0)

namespace ProbeWorld
variable (P : ProbeScheduler) (w : ProbeWorld)

/-- `probe_once` from here to its next await, or to its end. -/
def proceed (i : Nat) (now : ℚ) (classes closed : List String) (time : ℚ≥0) :
    ProbeWorld × List ProbeEvent :=
  match P.nextDue w.rows now classes with
  | some (effectClass, rest) =>
    ({ w with
        clock := w.clock + time
        sweeps := w.sweeps.set i (some ⟨now, effectClass, rest, closed⟩) },
      [.probed i effectClass (w.clock + time)])
  | none =>
    ({ w with
        clock := w.clock + time
        sweeps := w.sweeps.set i none
        loop := if w.loop = .sweeping i then .sleeping else w.loop },
      [.returned i closed])

/-- `probe_once` from its start, as the sweep after those there were. -/
def begins (loop : ProbeLoop) (time : ℚ≥0) : ProbeWorld × List ProbeEvent :=
  { w with sweeps := w.sweeps ++ [none], loop := loop }.proceed P w.sweeps.length w.clock
    (P.iterEffectClasses w.rows) [] time

/-- A step, and what it adds to the trace. -/
def step : ProbeLabel → ProbeWorld × List ProbeEvent
  | .passes time => ({ w with clock := w.clock + time }, [])
  | .recordFailure effectClass =>
    ({ w with rows := CircuitBreakerRows.store.recordFailure w.rows effectClass w.clock },
      [.failed effectClass w.clock])
  | .reset effectClass =>
    ({ w with rows := CircuitBreakerRows.store.reset w.rows effectClass }, [.reset effectClass])
  | .probeOnce time => w.begins P w.loop time
  | .start =>
    match w.loop with
    | .absent | .done => ({ w with loop := .sleeping }, [])
    | .sleeping | .sweeping _ => (w, [])
  | .wakes time =>
    match w.loop with
    | .sleeping => w.begins P (.sweeping w.sweeps.length) time
    | .absent | .done | .sweeping _ => (w, [])
  | .cancel =>
    match w.loop with
    | .sleeping => ({ w with loop := .done }, [])
    | .sweeping i => ({ w with loop := .done, sweeps := w.sweeps.set i none }, [])
    | .absent | .done => (w, [])
  | .answers i answer time =>
    match w.sweeps[i]? with
    | some (some s) =>
      match answer with
      | .returns true =>
        let after := { w with rows := CircuitBreakerRows.store.reset w.rows s.effectClass }.proceed P
          i s.now s.rest (s.closed ++ [s.effectClass]) time
        (after.1, after.2 ++ [.closed i s.effectClass])
      | .returns false => w.proceed P i s.now s.rest s.closed time
      | .raises =>
        -- the sweep is over, and nothing in the loop catches an `Exception`
        ({ w with
            clock := w.clock + time
            sweeps := w.sweeps.set i none
            loop := if w.loop = .sweeping i then .done else w.loop },
          [.raised i])
    | some none | none => (w, [])

def next (label : ProbeLabel) : ProbeWorld :=
  { (w.step P label).1 with trace := (w.step P label).2 ++ w.trace }

end ProbeWorld

/-! ### Safe probing -/

/-- A failure of the class was recorded after the sweep had read its state. -/
def failedWhileProbed (i : Nat) (effectClass : String) : List ProbeEvent → Bool
  | [] => false
  | .failed other _ :: rest => other = effectClass || failedWhileProbed i effectClass rest
  | .probed j other _ :: rest =>
    !(j = i && other = effectClass) && failedWhileProbed i effectClass rest
  | .reset _ :: rest | .closed _ _ :: rest | .raised _ :: rest | .returned _ _ :: rest =>
    failedWhileProbed i effectClass rest

/-- When the class last failed since its circuit was closed. -/
def lastFailure (effectClass : String) : List ProbeEvent → Option ℚ
  | [] => none
  | .failed other recordedAt :: rest =>
    if other = effectClass then some recordedAt else lastFailure effectClass rest
  | .reset other :: rest | .closed _ other :: rest =>
    if other = effectClass then none else lastFailure effectClass rest
  | .probed _ _ _ :: rest | .raised _ :: rest | .returned _ _ :: rest => lastFailure effectClass rest

/-- What a step owes. -/
structure ProbesSafely (P : ProbeScheduler) (w : ProbeWorld) (label : ProbeLabel) : Prop where
  /-- No failure is newer than what the sweep read of a circuit it closes. -/
  erasesNone : ∀ i effectClass, .closed i effectClass ∈ (w.step P label).2 →
    failedWhileProbed i effectClass w.trace = false
  /-- A class that is probed has not failed for the cooldown. -/
  waits : ∀ i effectClass startedAt newer older,
    (w.step P label).2 = newer ++ .probed i effectClass startedAt :: older →
      ∀ last ∈ lastFailure effectClass (older ++ w.trace),
        (P.policy.halfOpenAfterMs : ℚ) ≤ (startedAt - last) * 1000
  /-- After a probe that raises, the sweep and the loop go on as after one that fails. -/
  undeterred : ∀ i time, label = .answers i .raises time →
    (w.step P label).1.sweeps = (w.step P (.answers i (.returns false) time)).1.sweeps ∧
      (w.step P label).1.loop = (w.step P (.answers i (.returns false) time)).1.loop

/-- The world after the labels. -/
def reached (P : ProbeScheduler) (clock : ℚ) (labels : List ProbeLabel) : ProbeWorld :=
  run (ProbeWorld.next P) { clock := clock } labels

/-- A failure of the class was recorded while the sweep awaited this probe of it. -/
def Overtaken (P : ProbeScheduler) (clock : ℚ) (i : Nat) (s : Probing) (labels : List ProbeLabel) : Prop :=
  Since (ProbeWorld.next P)
    (fun w label => label = .recordFailure s.effectClass ∧ w.sweeps[i]? = some (some s))
    (fun w _ => w.sweeps[i]? = some (some s)) { clock := clock } labels

/-- A step after others. A probe answers `True` only if no failure of its class was recorded since
it was called, and one that raises is the last of a sweep that is not the loop's. -/
def Undisturbed (P : ProbeScheduler) (clock : ℚ) (before : List ProbeLabel) : ProbeLabel → Prop
  | .answers i (.returns true) _ =>
    ∀ s, (reached P clock before).sweeps[i]? = some (some s) → ¬ Overtaken P clock i s before
  | .answers i .raises _ =>
    ∀ s, (reached P clock before).sweeps[i]? = some (some s) →
      (reached P clock before).loop ≠ .sweeping i ∧
        P.nextDue (reached P clock before).rows s.now s.rest = none
  | .passes _ | .recordFailure _ | .reset _ | .probeOnce _ | .start | .wakes _ | .cancel
  | .answers _ (.returns false) _ => True

/-! ### What the store knows -/

section
variable {P : ProbeScheduler}

theorem ProbeScheduler.cooled_of_nextDue {rows : CircuitBreakerRows.store.State} {now : ℚ}
    {classes : List String} {effectClass : String} {rest : List String}
    (h : P.nextDue rows now classes = some (effectClass, rest)) :
    (P.policy.halfOpenAfterMs : ℚ) ≤
      (now - (CircuitBreakerRows.store.getState rows effectClass).2) * 1000 := by
  induction classes with
  | nil => cases h
  | cons first others ih =>
    rw [nextDue] at h
    split at h
    · exact ih h
    · dsimp only at h
      split at h
      · exact ih h
      · split at h
        · exact ih h
        case isFalse hcooled =>
          obtain ⟨rfl, rfl⟩ := Prod.mk.inj (Option.some.inj h)
          exact not_lt.mp hcooled

/-- The rows hold the newest failures, and every sweep began in the past. -/
structure KnowsFailures (w : ProbeWorld) : Prop where
  newest : ∀ effectClass last, lastFailure effectClass w.trace = some last →
    (CircuitBreakerRows.store.getState w.rows effectClass).2 = last
  past : ∀ s, some s ∈ w.sweeps → s.now ≤ w.clock

variable {w : ProbeWorld}

theorem KnowsFailures.failed (h : KnowsFailures w) (effectClass : String) :
    KnowsFailures { w with
      rows := CircuitBreakerRows.store.recordFailure w.rows effectClass w.clock
      trace := .failed effectClass w.clock :: w.trace } where
  newest other last hlast := by
    rw [CircuitBreakerRows.store.getState_record]
    rw [lastFailure] at hlast
    by_cases he : effectClass = other
    · rw [if_pos he] at hlast
      rw [if_pos he.symm]
      exact Option.some.inj hlast
    · rw [if_neg he] at hlast
      rw [if_neg (Ne.symm he)]
      exact h.newest other last hlast
  past := h.past

/-- A class whose row is deleted has no failure that counts. -/
theorem KnowsFailures.cleared (h : KnowsFailures w) (effectClass : String) (event : ProbeEvent)
    (hevent : ∀ other, lastFailure other (event :: w.trace) =
      if effectClass = other then none else lastFailure other w.trace) :
    KnowsFailures { w with
      rows := CircuitBreakerRows.store.reset w.rows effectClass
      trace := event :: w.trace } where
  newest other last hlast := by
    rw [CircuitBreakerRows.store.getState_reset]
    rw [hevent] at hlast
    by_cases he : effectClass = other
    · rw [if_pos he] at hlast
      cases hlast
    · rw [if_neg he] at hlast
      rw [if_neg (Ne.symm he)]
      exact h.newest other last hlast
  past := h.past

theorem KnowsFailures.later (h : KnowsFailures w) (time : ℚ≥0) (loop : ProbeLoop) :
    KnowsFailures { w with clock := w.clock + time, loop := loop } where
  newest := h.newest
  past s hs := by
    have hpast := h.past s hs
    have htime : (0 : ℚ) ≤ time := time.2
    show s.now ≤ w.clock + time
    linarith

/-- A sweep is over or awaits another probe; what it says is no news of a failure. -/
theorem KnowsFailures.moved (h : KnowsFailures w) (i : Nat) {s : Option Probing}
    (hs : ∀ probing ∈ s, probing.now ≤ w.clock) (events : List ProbeEvent)
    (hevents : ∀ other, lastFailure other (events ++ w.trace) = lastFailure other w.trace) :
    KnowsFailures { w with sweeps := w.sweeps.set i s, trace := events ++ w.trace } where
  newest other last hlast := h.newest other last (by rw [← hevents other]; exact hlast)
  past probing hprobing := by
    rcases List.mem_or_eq_of_mem_set hprobing with hold | hnew
    · exact h.past probing hold
    · exact hs probing hnew.symm

/-- A sweep that goes on leaves the rows and the failures as they are, whatever trace it adds to. -/
theorem KnowsFailures.proceed {trace : List ProbeEvent} (h : KnowsFailures { w with trace := trace })
    (i : Nat) {now : ℚ} (hnow : now ≤ w.clock) (classes closed : List String) (time : ℚ≥0) :
    KnowsFailures { (w.proceed P i now classes closed time).1 with
      trace := (w.proceed P i now classes closed time).2 ++ trace } := by
  have htime : (0 : ℚ) ≤ time := time.2
  unfold ProbeWorld.proceed
  split
  case h_1 effectClass rest _ =>
    refine (h.later time w.loop).moved i ?_ _ (fun _ => rfl)
    rintro probing ⟨⟩
    show now ≤ w.clock + time
    linarith
  case h_2 =>
    refine (h.later time _).moved i ?_ _ (fun _ => rfl)
    rintro probing ⟨⟩

theorem KnowsFailures.begun (h : KnowsFailures w) (loop : ProbeLoop) :
    KnowsFailures { w with sweeps := w.sweeps ++ [none], loop := loop } where
  newest := h.newest
  past s hs := h.past s (by simpa using hs)

theorem KnowsFailures.begins (h : KnowsFailures w) (loop : ProbeLoop) (time : ℚ≥0) :
    KnowsFailures { (w.begins P loop time).1 with
      trace := (w.begins P loop time).2 ++ w.trace } :=
  KnowsFailures.proceed (w := { w with sweeps := w.sweeps ++ [none], loop := loop }) (h.begun loop) _
    (le_refl _) _ _ time

/-- **Step.** -/
theorem KnowsFailures.next (h : KnowsFailures w) (label : ProbeLabel) :
    KnowsFailures (w.next P label) := by
  unfold ProbeWorld.next
  cases label with
  | passes time => exact h.later time w.loop
  | recordFailure effectClass => exact h.failed effectClass
  | reset effectClass => exact h.cleared effectClass _ (fun _ => rfl)
  | probeOnce time => exact h.begins w.loop time
  | start =>
    rw [ProbeWorld.step]
    split
    · exact ⟨h.newest, h.past⟩
    · exact ⟨h.newest, h.past⟩
    · exact h
    · exact h
  | wakes time =>
    rw [ProbeWorld.step]
    split
    · exact h.begins _ time
    · exact h
    · exact h
    · exact h
  | cancel =>
    rw [ProbeWorld.step]
    split
    · exact ⟨h.newest, h.past⟩
    case h_2 i _ =>
      have hover := h.moved i (s := none) (by rintro probing ⟨⟩) [] (fun _ => rfl)
      exact ⟨hover.newest, hover.past⟩
    · exact h
    · exact h
  | answers i answer time =>
    rw [ProbeWorld.step]
    split
    case h_1 s hs =>
      have hnow : s.now ≤ w.clock := h.past s (List.mem_of_getElem? hs)
      split
      · have hcleared := h.cleared s.effectClass (.closed i s.effectClass) (fun _ => rfl)
        rw [List.append_assoc]
        exact KnowsFailures.proceed
          (w := { w with rows := CircuitBreakerRows.store.reset w.rows s.effectClass })
          hcleared i hnow s.rest (s.closed ++ [s.effectClass]) time
      · exact h.proceed i hnow _ _ time
      · exact (h.later time _).moved i (s := none) (by rintro probing ⟨⟩) [.raised i]
          (fun _ => rfl)
    · exact h
    · exact h

/-! ### What can go wrong -/

/-- A sweep that goes on closes nothing and probes the class that is due. -/
theorem ProbeWorld.proceed_events (w : ProbeWorld) (i : Nat) (now : ℚ)
    (classes closed : List String) (time : ℚ≥0) :
    (w.proceed P i now classes closed time).2 = [.returned i closed] ∨
      ∃ effectClass rest,
        (w.proceed P i now classes closed time).2 = [.probed i effectClass (w.clock + time)] ∧
          P.nextDue w.rows now classes = some (effectClass, rest) := by
  unfold ProbeWorld.proceed
  split
  case h_1 effectClass rest hdue => exact .inr ⟨effectClass, rest, rfl, hdue⟩
  case h_2 => exact .inl rfl

theorem only_event {event probed : ProbeEvent} {newer older : List ProbeEvent}
    (h : [event] = newer ++ probed :: older) : event = probed ∧ older = [] := by
  rcases List.append_eq_singleton_iff.mp h.symm with ⟨_, hone⟩ | ⟨_, hnil⟩
  · exact ⟨(List.cons.inj hone).1.symm, (List.cons.inj hone).2⟩
  · cases hnil

/-- A probe begins after the cooldown: the sweep's time is no later than the clock. -/
theorem KnowsFailures.proceed_waits {trace : List ProbeEvent}
    (h : KnowsFailures { w with trace := trace }) {i j : Nat} {now : ℚ} (hnow : now ≤ w.clock)
    {classes closed : List String} {time : ℚ≥0} {effectClass : String} {startedAt : ℚ}
    {newer older : List ProbeEvent}
    (hsplit : (w.proceed P i now classes closed time).2 =
      newer ++ .probed j effectClass startedAt :: older) :
    ∀ last ∈ lastFailure effectClass (older ++ trace),
      (P.policy.halfOpenAfterMs : ℚ) ≤ (startedAt - last) * 1000 := by
  rcases w.proceed_events i now classes closed time with hret | ⟨other, rest, hprobed, hdue⟩
  · rw [hret] at hsplit
    cases (only_event hsplit).1
  · rw [hprobed] at hsplit
    obtain ⟨hsame, rfl⟩ := only_event hsplit
    obtain ⟨_, rfl, rfl⟩ := ProbeEvent.probed.inj hsame
    intro last hlast
    have hcooled := ProbeScheduler.cooled_of_nextDue hdue
    have htime : (0 : ℚ) ≤ time := time.2
    rw [show (CircuitBreakerRows.store.getState w.rows other).2 = last from
      h.newest other last hlast] at hcooled
    linarith

theorem KnowsFailures.begins_waits (h : KnowsFailures w) {loop : ProbeLoop} {time : ℚ≥0} {j : Nat}
    {effectClass : String} {startedAt : ℚ} {newer older : List ProbeEvent}
    (hsplit : (w.begins P loop time).2 = newer ++ .probed j effectClass startedAt :: older) :
    ∀ last ∈ lastFailure effectClass (older ++ w.trace),
      (P.policy.halfOpenAfterMs : ℚ) ≤ (startedAt - last) * 1000 :=
  KnowsFailures.proceed_waits (w := { w with sweeps := w.sweeps ++ [none], loop := loop })
    (h.begun loop) (le_refl _) hsplit

/-- What a step that closes a circuit did: the awaited probe answered `True`. -/
theorem ProbeWorld.answered_of_closed {label : ProbeLabel} {i : Nat} {effectClass : String}
    (h : .closed i effectClass ∈ (w.step P label).2) :
    ∃ s time, label = .answers i (.returns true) time ∧ w.sweeps[i]? = some (some s) ∧
      s.effectClass = effectClass := by
  have hproceed : ∀ {w' : ProbeWorld} {j : Nat} {now : ℚ} {classes closed : List String}
      {time : ℚ≥0}, .closed i effectClass ∉ (w'.proceed P j now classes closed time).2 := by
    intro w' j now classes closed time hmem
    rcases w'.proceed_events j now classes closed time with hret | ⟨other, rest, hprobed, _⟩
    · rw [hret] at hmem
      cases List.mem_singleton.mp hmem
    · rw [hprobed] at hmem
      cases List.mem_singleton.mp hmem
  cases label with
  | answers j answer time =>
    rw [ProbeWorld.step] at h
    split at h
    case h_1 s hs =>
      split at h
      · rcases List.mem_append.mp h with hon | hclosed
        · exact absurd hon hproceed
        · obtain ⟨rfl, rfl⟩ := ProbeEvent.closed.inj (List.mem_singleton.mp hclosed)
          exact ⟨s, time, rfl, hs, rfl⟩
      · exact absurd h hproceed
      · cases List.mem_singleton.mp h
    · cases h
    · cases h
  | passes time => cases h
  | recordFailure other => cases List.mem_singleton.mp h
  | reset other => cases List.mem_singleton.mp h
  | probeOnce time => exact absurd h hproceed
  | start =>
    rw [ProbeWorld.step] at h
    split at h <;> cases h
  | wakes time =>
    rw [ProbeWorld.step] at h
    split at h
    · exact absurd h hproceed
    all_goals cases h
  | cancel =>
    rw [ProbeWorld.step] at h
    split at h <;> cases h

/-- Every probe waits for the cooldown. -/
theorem KnowsFailures.waits (h : KnowsFailures w) {label : ProbeLabel} {i : Nat}
    {effectClass : String} {startedAt : ℚ} {newer older : List ProbeEvent}
    (hsplit : (w.step P label).2 = newer ++ .probed i effectClass startedAt :: older) :
    ∀ last ∈ lastFailure effectClass (older ++ w.trace),
      (P.policy.halfOpenAfterMs : ℚ) ≤ (startedAt - last) * 1000 := by
  have hsilent : ([] : List ProbeEvent) ≠ newer ++ .probed i effectClass startedAt :: older := by
    simp
  cases label with
  | passes time => exact absurd hsplit hsilent
  | recordFailure other => cases (only_event hsplit).1
  | reset other => cases (only_event hsplit).1
  | probeOnce time => exact h.begins_waits hsplit
  | start =>
    rw [ProbeWorld.step] at hsplit
    split at hsplit <;> exact absurd hsplit hsilent
  | wakes time =>
    rw [ProbeWorld.step] at hsplit
    split at hsplit
    · exact h.begins_waits hsplit
    all_goals exact absurd hsplit hsilent
  | cancel =>
    rw [ProbeWorld.step] at hsplit
    split at hsplit <;> exact absurd hsplit hsilent
  | answers j answer time =>
    rw [ProbeWorld.step] at hsplit
    split at hsplit
    case h_1 s hs =>
      have hnow : s.now ≤ w.clock := h.past s (List.mem_of_getElem? hs)
      split at hsplit
      · -- the row of the class that was probed is gone before the next is read
        rcases List.eq_nil_or_concat older with rfl | ⟨before, event, rfl⟩
        · have hlast := List.append_inj_right' hsplit rfl
          cases (List.cons.inj hlast).1
        · have hsame := hsplit
          rw [List.concat_eq_append, ← List.cons_append, ← List.append_assoc] at hsame
          obtain ⟨hevents, hclosed⟩ := List.append_inj' hsame rfl
          rw [List.concat_eq_append, ← hclosed, List.append_assoc]
          exact KnowsFailures.proceed_waits
            (w := { w with rows := CircuitBreakerRows.store.reset w.rows s.effectClass })
            (h.cleared s.effectClass (.closed j s.effectClass) (fun _ => rfl)) hnow hevents
      · exact h.proceed_waits hnow hsplit
      · cases (only_event hsplit).1
    all_goals exact absurd hsplit hsilent

/-- The sweep and the loop after a raise are those after a failed probe exactly when nothing was
left to be done. -/
theorem ProbeWorld.undeterred_iff {i : Nat} {s : Probing} (hs : w.sweeps[i]? = some (some s))
    (time : ℚ≥0) :
    ((w.step P (.answers i .raises time)).1.sweeps =
        (w.step P (.answers i (.returns false) time)).1.sweeps ∧
      (w.step P (.answers i .raises time)).1.loop =
        (w.step P (.answers i (.returns false) time)).1.loop) ↔
      w.loop ≠ .sweeping i ∧ P.nextDue w.rows s.now s.rest = none := by
  have hlt : i < w.sweeps.length := (List.getElem?_eq_some_iff.mp hs).1
  simp only [ProbeWorld.step, hs, ProbeWorld.proceed]
  cases hdue : P.nextDue w.rows s.now s.rest with
  | none =>
    by_cases hloop : w.loop = .sweeping i <;> simp [hloop]
  | some due =>
    refine iff_of_false ?_ (fun h => nomatch h.2)
    rintro ⟨hsweeps, _⟩
    have hat := congrArg (fun sweeps => sweeps[i]?) hsweeps
    simp [hlt] at hat

/-! ### What a probe is overtaken by -/

/-- What is due leaves fewer classes. -/
theorem ProbeScheduler.length_nextDue {rows : CircuitBreakerRows.store.State} {now : ℚ}
    {classes : List String} {effectClass : String} {rest : List String}
    (h : P.nextDue rows now classes = some (effectClass, rest)) : rest.length < classes.length := by
  induction classes with
  | nil => cases h
  | cons first others ih =>
    have hothers : P.nextDue rows now others = some (effectClass, rest) →
        rest.length < (first :: others).length := fun h => Nat.lt_succ_of_lt (ih h)
    rw [nextDue] at h
    split at h
    · exact hothers h
    · dsimp only at h
      split at h
      · exact hothers h
      · split at h
        · exact hothers h
        · obtain ⟨rfl, rfl⟩ := Prod.mk.inj (Option.some.inj h)
          exact Nat.lt_succ_self _

/-- A sweep that goes on awaits a probe it has just called, one of the classes it had left; the
others await what they did. -/
theorem ProbeWorld.awaited_proceed {i j : Nat} {now : ℚ} {classes closed : List String} {time : ℚ≥0}
    {s : Probing} (trace : List ProbeEvent)
    (hs : (w.proceed P j now classes closed time).1.sweeps[i]? = some (some s)) :
    (i = j ∧ s.rest.length < classes.length ∧
      failedWhileProbed i s.effectClass ((w.proceed P j now classes closed time).2 ++ trace) = false) ∨
    (i ≠ j ∧ w.sweeps[i]? = some (some s) ∧
      failedWhileProbed i s.effectClass ((w.proceed P j now classes closed time).2 ++ trace) =
        failedWhileProbed i s.effectClass trace) := by
  unfold ProbeWorld.proceed at hs ⊢
  cases hdue : P.nextDue w.rows now classes with
  | none =>
    simp only [hdue, List.getElem?_set] at hs ⊢
    split at hs
    · split at hs <;> cases hs
    next hij => exact .inr ⟨Ne.symm hij, hs, rfl⟩
  | some due =>
    obtain ⟨effectClass, rest⟩ := due
    simp only [hdue, List.getElem?_set] at hs ⊢
    split at hs
    next hij =>
      split at hs
      · cases hs
        exact .inl ⟨hij.symm, ProbeScheduler.length_nextDue hdue, by simp [failedWhileProbed, hij]⟩
      · cases hs
    next hij => exact .inr ⟨Ne.symm hij, hs, by simp [failedWhileProbed, hij]⟩

theorem ProbeWorld.sweeps_set_none {i j : Nat} {s : Probing} {sweeps : List (Option Probing)}
    (hs : (sweeps.set j none)[i]? = some (some s)) : sweeps[i]? = some (some s) := by
  rw [List.getElem?_set] at hs
  split at hs
  · split at hs <;> cases hs
  · exact hs

/-- After a step that leaves this trace, an awaited probe has just been called; or it was awaited
before, and is overtaken if it was or if a failure of its class is recorded. -/
def Carried (w : ProbeWorld) (label : ProbeLabel) (i : Nat) (s : Probing) (trace : List ProbeEvent) : Prop :=
  (w.sweeps[i]? ≠ some (some s) ∧ failedWhileProbed i s.effectClass trace = false) ∨
    (w.sweeps[i]? = some (some s) ∧ (failedWhileProbed i s.effectClass trace = true ↔
      label = .recordFailure s.effectClass ∨ failedWhileProbed i s.effectClass w.trace = true))

theorem Carried.stays {label : ProbeLabel} {i : Nat} {s : Probing} {trace : List ProbeEvent}
    (hs : w.sweeps[i]? = some (some s)) (hlabel : label ≠ .recordFailure s.effectClass)
    (htrace : failedWhileProbed i s.effectClass trace = failedWhileProbed i s.effectClass w.trace) :
    Carried w label i s trace :=
  .inr ⟨hs, by rw [htrace, or_iff_right hlabel]⟩

theorem Carried.begins {label : ProbeLabel} {i : Nat} {s : Probing} {loop : ProbeLoop} {time : ℚ≥0}
    (hlabel : label ≠ .recordFailure s.effectClass)
    (hs : (w.begins P loop time).1.sweeps[i]? = some (some s)) :
    Carried w label i s ((w.begins P loop time).2 ++ w.trace) := by
  rcases ProbeWorld.awaited_proceed w.trace hs with ⟨rfl, -, hnone⟩ | ⟨hother, hold, hsame⟩
  · exact .inl ⟨by simp, hnone⟩
  · refine .stays ?_ hlabel hsame
    rcases Nat.lt_trichotomy i w.sweeps.length with hlt | heq | hgt
    · exact (List.getElem?_append_left hlt).symm.trans hold
    · exact absurd heq hother
    · rw [List.getElem?_eq_none (by simpa using Nat.succ_le_of_lt hgt)] at hold
      cases hold

/-- The sweep that goes on has fewer classes left than when it called the probe. -/
theorem Carried.answered {label : ProbeLabel} {i j : Nat} {s s₀ : Probing} {w' : ProbeWorld}
    {closed : List String} {time : ℚ≥0} {trace : List ProbeEvent}
    (hlabel : label ≠ .recordFailure s.effectClass) (hawaiting : w.sweeps[j]? = some (some s₀))
    (hsweeps : w'.sweeps = w.sweeps)
    (htrace : failedWhileProbed i s.effectClass trace = failedWhileProbed i s.effectClass w.trace)
    (hs : (w'.proceed P j s₀.now s₀.rest closed time).1.sweeps[i]? = some (some s)) :
    Carried w label i s ((w'.proceed P j s₀.now s₀.rest closed time).2 ++ trace) := by
  rcases ProbeWorld.awaited_proceed trace hs with ⟨rfl, hshorter, hnone⟩ | ⟨-, hold, hsame⟩
  · refine .inl ⟨fun hagain => ?_, hnone⟩
    obtain rfl : s₀ = s := Option.some.inj (Option.some.inj (hawaiting.symm.trans hagain))
    exact Nat.lt_irrefl _ hshorter
  · exact .stays (hsweeps ▸ hold) hlabel (hsame.trans htrace)

/-- **Step.** -/
theorem ProbeWorld.carried_next {label : ProbeLabel} {i : Nat} {s : Probing}
    (hs : (w.next P label).sweeps[i]? = some (some s)) :
    Carried w label i s (w.next P label).trace := by
  unfold ProbeWorld.next at hs ⊢
  cases label with
  | passes time => exact .stays hs (by simp) rfl
  | reset other => exact .stays hs (by simp) rfl
  | recordFailure other => exact .inr ⟨hs, by simp [ProbeWorld.step, failedWhileProbed]⟩
  | probeOnce time => exact .begins (by simp) hs
  | start =>
    rw [ProbeWorld.step] at hs ⊢
    refine .stays ?_ (by simp) ?_
    · split at hs <;> exact hs
    · split <;> rfl
  | wakes time =>
    cases hloop : w.loop with
    | sleeping =>
      simp only [ProbeWorld.step, hloop] at hs ⊢
      exact .begins (by simp) hs
    | absent | done | sweeping j =>
      simp only [ProbeWorld.step, hloop] at hs ⊢
      exact .stays hs (by simp) rfl
  | cancel =>
    cases hloop : w.loop with
    | sweeping j =>
      simp only [ProbeWorld.step, hloop] at hs ⊢
      exact .stays (sweeps_set_none hs) (by simp) rfl
    | absent | done | sleeping =>
      simp only [ProbeWorld.step, hloop] at hs ⊢
      exact .stays hs (by simp) rfl
  | answers j answer time =>
    cases hawaiting : w.sweeps[j]? with
    | none =>
      simp only [ProbeWorld.step, hawaiting] at hs ⊢
      exact .stays hs (by simp) rfl
    | some awaiting =>
      cases awaiting with
      | none =>
        simp only [ProbeWorld.step, hawaiting] at hs ⊢
        exact .stays hs (by simp) rfl
      | some s₀ =>
        cases answer with
        | returns probeOk =>
          cases probeOk with
          | true =>
            simp only [ProbeWorld.step, hawaiting, List.append_assoc] at hs ⊢
            exact .answered (by simp) hawaiting rfl rfl hs
          | false =>
            simp only [ProbeWorld.step, hawaiting] at hs ⊢
            exact .answered (by simp) hawaiting rfl rfl hs
        | raises =>
          simp only [ProbeWorld.step, hawaiting] at hs ⊢
          exact .stays (sweeps_set_none hs) (by simp) rfl

/-- **A probe is overtaken where the trace says so.** -/
theorem overtaken_iff (clock : ℚ) (labels : List ProbeLabel) (i : Nat) (s : Probing)
    (hs : (reached P clock labels).sweeps[i]? = some (some s)) :
    Overtaken P clock i s labels ↔
      failedWhileProbed i s.effectClass (reached P clock labels).trace = true := by
  induction labels using List.reverseRecOn with
  | nil => cases hs
  | append_singleton labels label ih =>
    have hreached : reached P clock (labels ++ [label]) = (reached P clock labels).next P label :=
      run_append _ _ _ _
    rw [hreached] at hs ⊢
    rw [Overtaken, since_append, ← Overtaken]
    show (label = _ ∧ (reached P clock labels).sweeps[i]? = _) ∨
      (_ ∧ (reached P clock labels).sweeps[i]? = _) ↔ _
    rcases ProbeWorld.carried_next hs with ⟨hnew, hnone⟩ | ⟨hold, hfailed⟩
    · simp [hnew, hnone]
    · rw [hfailed, ih hold]
      simp [hold]

theorem knowsFailures_reached (clock : ℚ) (labels : List ProbeLabel) :
    KnowsFailures (reached P clock labels) := by
  have hfresh : KnowsFailures { clock := clock } := by
    refine ⟨fun effectClass last hlast => ?_, fun _ hs => absurd hs List.not_mem_nil⟩
    cases hlast
  exact run_invariant (I := KnowsFailures) (fun _ label h => h.next label) hfresh labels

/-- **Exactness of a step.** -/
theorem probesSafely_iff (clock : ℚ) (before : List ProbeLabel) (label : ProbeLabel) :
    ProbesSafely P (reached P clock before) label ↔ Undisturbed P clock before label := by
  have h := knowsFailures_reached (P := P) clock before
  constructor
  · intro hsafe
    cases label with
    | answers i answer time =>
      cases answer with
      | returns probeOk =>
        cases probeOk with
        | true =>
          intro s hs hovertaken
          have hnone := hsafe.erasesNone i s.effectClass (by simp [ProbeWorld.step, hs])
          rw [(overtaken_iff clock before i s hs).mp hovertaken] at hnone
          cases hnone
        | false => exact trivial
      | raises =>
        intro s hs
        exact (ProbeWorld.undeterred_iff hs time).mp (hsafe.undeterred i time rfl)
    | passes _ | recordFailure _ | reset _ | probeOnce _ | start | wakes _ | cancel => exact trivial
  · intro hcalm
    refine ⟨?_, fun i effectClass startedAt newer older hsplit => h.waits hsplit, ?_⟩
    · intro i effectClass hclosed
      obtain ⟨s, time, rfl, hs, rfl⟩ := ProbeWorld.answered_of_closed hclosed
      exact Bool.eq_false_iff.mpr (fun hfailed => hcalm s hs ((overtaken_iff clock before i s hs).mpr hfailed))
    · rintro i time rfl
      cases hs : (reached P clock before).sweeps[i]? with
      | none => simp [ProbeWorld.step, hs]
      | some awaiting =>
        cases awaiting with
        | none => simp [ProbeWorld.step, hs]
        | some s => exact (ProbeWorld.undeterred_iff hs time).mpr (hcalm s hs)

end

/-- **When probing is safe.** In any interleaving, every step closes circuits, probes and goes on
as it should exactly when no failure of a class is recorded between the call of a probe of it and
the answer `True`, and every probe that raises is the last of a sweep that was not made by the
loop. -/
theorem probes_safely_iff (P : ProbeScheduler) (clock : ℚ) (labels : List ProbeLabel) :
    Along (ProbeWorld.next P) (ProbesSafely P) { clock := clock } labels ↔
      ∀ before label, before ++ [label] <+: labels → Undisturbed P clock before label :=
  along_iff_history (fun before label _ => probesSafely_iff clock before label) labels

/-- Writes are probed a second after a single failure of theirs. -/
def impatientProbe : ProbeScheduler where
  policy := ⟨1, 1000⟩
  probeFns := ["compensatable_write", "idempotent_write"]

/-- A failure that is recorded while the probe is awaited is erased by its answer; and a probe
that raises ends the loop. -/
theorem probe_erases_failure :
    ¬ Along (ProbeWorld.next impatientProbe) (ProbesSafely impatientProbe) { clock := 100 }
        [.recordFailure "idempotent_write", .passes 60, .probeOnce 0,
          .recordFailure "idempotent_write", .answers 0 (.returns true) 0] ∧
      ¬ Along (ProbeWorld.next impatientProbe) (ProbesSafely impatientProbe) { clock := 100 }
        [.recordFailure "idempotent_write", .passes 60, .start, .wakes 0, .answers 0 .raises 0] := by
  constructor
  · rintro ⟨-, -, -, -, hlast, -⟩
    have herased := hlast.erasesNone 0 "idempotent_write" (by decide +kernel)
    revert herased
    decide +kernel
  · rintro ⟨-, -, -, -, hlast, -⟩
    have hon := (hlast.undeterred 0 0 rfl).2
    revert hon
    decide +kernel

end AgentKernel.Recovery
