import AgentKernel.Lib.Dict
import AgentKernel.Lib.Run

/-! Which services the workflows of an adaptor work with.

A workflow is built without arguments and takes the bundle that its context is bound to, or
the one the process was given last, or makes services of its own. Every start of an adaptor
binds both, and a stop unbinds both if the process still has its bundle, so what a run gets
depends on the other adaptors. What is bound can be read off the history of starts, stops and
copies of contexts (`recorded_run`), and each adaptor keeps its runs on its own services exactly
when, by that history, every run is started where they are visible (`isolation_iff`). -/
namespace AgentKernel.Substrate
open Lib

/-! ### Bundles and bindings -/

/-- The identity of an object. -/
abbrev Ref := Nat

/-- The services of a bundle that a workflow is judged by. -/
structure BundleServices where
  eventLog : Ref
  projection : Ref
  admission : Ref
  executor : Ref
  recovery : Ref
  dedupeStore : Option Ref := none
  deriving DecidableEq, Repr

/-- A bundle is an object of its own, whatever services it carries. -/
structure RunActorDependencyBundle where
  token : Ref
  services : BundleServices
  deriving DecidableEq, Repr

/-- An instance of the workflow; without a bundle it works with services it made itself. -/
structure RunActorWorkflow where
  dependencies : Option BundleServices
  deriving DecidableEq, Repr

/-- What the process has bound: for each context of asyncio, and for all of them. -/
structure Bindings where
  contexts : Dict Nat RunActorDependencyBundle := Dict.empty
  fallback : Option RunActorDependencyBundle := none

namespace Bindings

/-- `configure_run_actor_dependencies`. -/
def configure (b : Bindings) (context : Nat) (deps : RunActorDependencyBundle) : Bindings where
  contexts := b.contexts.set context deps
  fallback := some deps

/-- `clear_run_actor_dependencies`. -/
def clear (b : Bindings) (context : Nat) (token : RunActorDependencyBundle) : Bindings :=
  if b.fallback.any (fun deps => deps.token = token.token) then
    { contexts := b.contexts.erase context, fallback := none }
  else b

/-- A new task runs in a copy of its creator's context. -/
def fork (b : Bindings) (parent child : Nat) : Bindings :=
  match b.contexts.get? parent with
  | some deps => { b with contexts := b.contexts.set child deps }
  | none => { b with contexts := b.contexts.erase child }

/-- The bundle that is visible in a context. -/
def visible (b : Bindings) (context : Nat) : Option RunActorDependencyBundle :=
  match b.contexts.get? context with
  | some deps => some deps
  | none => b.fallback

/-- `RunActorWorkflow()`, by `_resolve_run_actor_dependencies` without arguments. -/
def workflow (b : Bindings) (context : Nat) : RunActorWorkflow :=
  match b.visible context with
  | some deps => ⟨some deps.services⟩
  | none => ⟨none⟩

end Bindings

/-! ### Adaptors -/

/-- `LocalWorkflowGateway`. -/
structure InProcessGateway where
  deps : RunActorDependencyBundle
  workflows : Dict String RunActorWorkflow := Dict.empty

/-- `LocalFSMAdaptor`, and whether it was started and not stopped since. -/
structure LocalFSMAdaptor where
  deps : Option RunActorDependencyBundle := none
  gateway : Option InProcessGateway := none
  running : Bool := false

structure AdaptorProcess where
  bindings : Bindings := {}
  adaptors : Dict Nat LocalFSMAdaptor := Dict.empty

/-- What happens in the process. A stop of an adaptor first shuts its gateway down and then
clears its binding; between the two the other tasks may run. A signal and a query go to the
instance the gateway holds. -/
inductive AdaptorEvent where
  | fork (parent child : Nat)
  | start (context adaptor : Nat) (deps : RunActorDependencyBundle)
  | shutdown (adaptor : Nat)
  | clear (context adaptor : Nat)
  | startWorkflow (context adaptor : Nat) (runId : String)
  | signalWorkflow (adaptor : Nat) (runId : String)
  | queryProjection (adaptor : Nat) (runId : String)
  | cancelWorkflow (adaptor : Nat) (runId : String)

namespace LocalFSMAdaptor

def start (deps : RunActorDependencyBundle) : LocalFSMAdaptor where
  deps := some deps
  gateway := some { deps := deps }
  running := true

def shutdown (a : LocalFSMAdaptor) : LocalFSMAdaptor :=
  { a with
    gateway := a.gateway.map (fun g => { g with workflows := Dict.empty })
    running := false }

/-- The instance a gateway keeps for a run; a run that is there raises. -/
def startWorkflow (workflow : RunActorWorkflow) (runId : String) (a : LocalFSMAdaptor) : LocalFSMAdaptor :=
  { a with
    gateway := a.gateway.map (fun g =>
      if runId ∈ g.workflows.keys then g else { g with workflows := g.workflows.set runId workflow }) }

def cancelWorkflow (runId : String) (a : LocalFSMAdaptor) : LocalFSMAdaptor :=
  { a with gateway := a.gateway.map (fun g => { g with workflows := g.workflows.erase runId }) }

/-- The instance that drives a run. -/
def driver (a : LocalFSMAdaptor) (runId : String) : Option RunActorWorkflow :=
  a.gateway.bind (fun g => g.workflows.get? runId)

end LocalFSMAdaptor

namespace AdaptorProcess

def adaptor (p : AdaptorProcess) (i : Nat) : LocalFSMAdaptor := (p.adaptors.get? i).getD {}

/-- Change one adaptor. -/
def put (p : AdaptorProcess) (i : Nat) (a : LocalFSMAdaptor) : AdaptorProcess :=
  { p with adaptors := p.adaptors.set i a }

def next (p : AdaptorProcess) : AdaptorEvent → AdaptorProcess
  | .fork parent child => { p with bindings := p.bindings.fork parent child }
  | .start context i deps =>
    { p.put i (.start deps) with bindings := p.bindings.configure context deps }
  | .shutdown i => p.put i (p.adaptor i).shutdown
  | .clear context i =>
    match (p.adaptor i).deps with
    | some deps => { p with bindings := p.bindings.clear context deps }
    | none => p
  | .startWorkflow context i runId =>
    p.put i ((p.adaptor i).startWorkflow (p.bindings.workflow context) runId)
  | .signalWorkflow .. | .queryProjection .. => p
  | .cancelWorkflow i runId => p.put i ((p.adaptor i).cancelWorkflow runId)

/-! ### What is asked of the adaptors -/

/-- Every run of an adaptor that is running is driven on the services of its own bundle. -/
def Isolated (p : AdaptorProcess) : Prop :=
  ∀ i, (p.adaptor i).running = true → ∀ runId workflow, (p.adaptor i).driver runId = some workflow →
    workflow.dependencies = (p.adaptor i).deps.map RunActorDependencyBundle.services

/-- A new run of an adaptor that is running sees a bundle with the adaptor's services. -/
def SeesOwn (p : AdaptorProcess) : AdaptorEvent → Prop
  | .startWorkflow context i runId =>
    (p.adaptor i).running = true → (p.adaptor i).driver runId = none →
      (p.bindings.visible context).map RunActorDependencyBundle.services =
        (p.adaptor i).deps.map RunActorDependencyBundle.services
  | _ => True

/-! ### One event -/

variable {p : AdaptorProcess}

theorem adaptor_put (p : AdaptorProcess) (i j : Nat) (a : LocalFSMAdaptor) :
    (p.put i a).adaptor j = if j = i then a else p.adaptor j := by
  unfold adaptor put
  rw [Dict.get?_set]
  split <;> rfl

theorem adaptors_clear (p : AdaptorProcess) (context i : Nat) :
    (p.next (.clear context i)).adaptors = p.adaptors := by
  simp only [next]
  split <;> rfl

theorem driver_start (deps : RunActorDependencyBundle) (runId : String) :
    (LocalFSMAdaptor.start deps).driver runId = none := rfl

theorem driver_cancelWorkflow (a : LocalFSMAdaptor) (runId runId' : String) :
    (a.cancelWorkflow runId).driver runId' = if runId' = runId then none else a.driver runId' := by
  unfold LocalFSMAdaptor.driver LocalFSMAdaptor.cancelWorkflow
  cases a.gateway with
  | none => simp
  | some g => simp [Dict.get?_erase]

/-- A start keeps the instance of a run that is there, and puts the new one where none is. -/
theorem driver_startWorkflow {a : LocalFSMAdaptor} {g : InProcessGateway} (hgateway : a.gateway = some g)
    (workflow : RunActorWorkflow) (runId runId' : String) :
    (a.startWorkflow workflow runId).driver runId' =
      if runId' = runId ∧ a.driver runId = none then some workflow else a.driver runId' := by
  have hdriver : ∀ r, a.driver r = g.workflows.get? r := by
    intro r
    rw [LocalFSMAdaptor.driver, hgateway]
    rfl
  have hstarted : (a.startWorkflow workflow runId).driver runId' =
      (if runId ∈ g.workflows.keys then g
        else { g with workflows := g.workflows.set runId workflow }).workflows.get? runId' := by
    simp only [LocalFSMAdaptor.driver, LocalFSMAdaptor.startWorkflow, hgateway, Option.map_some,
      Option.bind_some]
  rw [hstarted]
  simp only [hdriver, Dict.get?_eq_none_iff]
  by_cases hthere : runId ∈ g.workflows.keys
  · simp [hthere]
  · simp only [hthere, if_false, not_false_eq_true, and_true]
    exact Dict.get?_set g.workflows runId runId' workflow

theorem isolated_of_adaptors {p' : AdaptorProcess} (h : p.Isolated) (hsame : p'.adaptors = p.adaptors) :
    p'.Isolated := by
  intro i
  rw [adaptor, hsame]
  exact h i

/-- Only the changed adaptor is in question. -/
theorem isolated_put_iff (h : p.Isolated) (i : Nat) (a : LocalFSMAdaptor) :
    (p.put i a).Isolated ↔ (a.running = true → ∀ runId workflow, a.driver runId = some workflow →
      workflow.dependencies = a.deps.map RunActorDependencyBundle.services) := by
  constructor
  · intro hput
    have hown := hput i
    rw [adaptor_put, if_pos rfl] at hown
    exact hown
  · intro hown j
    rw [adaptor_put]
    split
    · exact hown
    · exact h j

/-- A running adaptor has its gateway. -/
def Wired (p : AdaptorProcess) : Prop :=
  ∀ i, (p.adaptor i).running = true → ∃ g, (p.adaptor i).gateway = some g

theorem wired_put (h : p.Wired) {i : Nat} {a : LocalFSMAdaptor}
    (hown : a.running = true → ∃ g, a.gateway = some g) : (p.put i a).Wired := by
  intro j
  rw [adaptor_put]
  split
  · exact hown
  · exact h j

theorem wired_of_adaptors {p' : AdaptorProcess} (h : p.Wired) (hsame : p'.adaptors = p.adaptors) :
    p'.Wired := by
  intro i
  rw [adaptor, hsame]
  exact h i

theorem wired_next (h : p.Wired) (e : AdaptorEvent) : (p.next e).Wired := by
  cases e with
  | fork parent child => exact wired_of_adaptors h rfl
  | start context i deps => exact wired_put h (fun _ => ⟨_, rfl⟩)
  | shutdown i => exact wired_put h (fun hrunning => nomatch hrunning)
  | clear context i => exact wired_of_adaptors h (adaptors_clear p context i)
  | startWorkflow context i runId =>
    refine wired_put h (fun hrunning => ?_)
    obtain ⟨g, hgateway⟩ := h i hrunning
    exact ⟨_, by rw [LocalFSMAdaptor.startWorkflow, hgateway, Option.map_some]⟩
  | signalWorkflow i runId => exact h
  | queryProjection i runId => exact h
  | cancelWorkflow i runId =>
    refine wired_put h (fun hrunning => ?_)
    obtain ⟨g, hgateway⟩ := h i hrunning
    exact ⟨_, by rw [LocalFSMAdaptor.cancelWorkflow, hgateway, Option.map_some]⟩

theorem workflow_dependencies (b : Bindings) (context : Nat) :
    (b.workflow context).dependencies =
      (b.visible context).map RunActorDependencyBundle.services := by
  unfold Bindings.workflow
  cases b.visible context <;> rfl

/-- A start of a workflow keeps the adaptors isolated exactly when it sees its own services. -/
theorem isolated_startWorkflow_iff (h : p.Isolated) (hwired : p.Wired) (context i : Nat) (runId : String) :
    (p.next (.startWorkflow context i runId)).Isolated ↔ p.SeesOwn (.startWorkflow context i runId) := by
  unfold next
  rw [isolated_put_iff h]
  constructor
  · intro hown hrunning hnew
    obtain ⟨g, hgateway⟩ := hwired i hrunning
    have hdriven := hown hrunning runId (p.bindings.workflow context)
      (by rw [driver_startWorkflow hgateway, if_pos ⟨rfl, hnew⟩])
    rw [workflow_dependencies] at hdriven
    exact hdriven
  · intro hsees hrunning runId' workflow hdriver
    obtain ⟨g, hgateway⟩ := hwired i hrunning
    rw [driver_startWorkflow hgateway] at hdriver
    split at hdriver
    · rename_i hfresh
      rw [← Option.some.inj hdriver, workflow_dependencies]
      exact hsees hrunning hfresh.2
    · exact h i hrunning runId' workflow hdriver

/-- **An event keeps the adaptors isolated exactly when it sees its own services.** -/
theorem isolated_next_iff (h : p.Isolated) (hwired : p.Wired) (e : AdaptorEvent) :
    (p.next e).Isolated ↔ p.SeesOwn e := by
  cases e with
  | fork parent child => exact iff_of_true (isolated_of_adaptors h rfl) trivial
  | start context i deps =>
    refine iff_of_true ?_ trivial
    have hput : (p.put i (.start deps)).Isolated := by
      refine (isolated_put_iff h i _).mpr (fun _ runId workflow hdriver => ?_)
      rw [driver_start] at hdriver
      cases hdriver
    exact isolated_of_adaptors hput rfl
  | shutdown i =>
    exact iff_of_true ((isolated_put_iff h i _).mpr (fun hrunning => nomatch hrunning)) trivial
  | clear context i => exact iff_of_true (isolated_of_adaptors h (adaptors_clear p context i)) trivial
  | startWorkflow context i runId => exact isolated_startWorkflow_iff h hwired context i runId
  | signalWorkflow i runId => exact iff_of_true h trivial
  | queryProjection i runId => exact iff_of_true h trivial
  | cancelWorkflow i runId =>
    refine iff_of_true ((isolated_put_iff h i _).mpr (fun hrunning runId' workflow hdriver => ?_)) trivial
    rw [driver_cancelWorkflow] at hdriver
    split at hdriver
    · cases hdriver
    · exact h i hrunning runId' workflow hdriver

end AdaptorProcess

/-! ### The history

The events so far, the last one first. -/

namespace History

/-- The bundle the adaptor was started with last. -/
def startedWith (i : Nat) : List AdaptorEvent → Option RunActorDependencyBundle
  | [] => none
  | .start _ j deps :: past => if j = i then some deps else startedWith i past
  | _ :: past => startedWith i past

/-- The adaptor was started, and not stopped since. -/
def running (i : Nat) : List AdaptorEvent → Bool
  | [] => false
  | .start _ j _ :: past => j = i || running i past
  | .shutdown j :: past => j ≠ i && running i past
  | _ :: past => running i past

/-- The run was started since the last start or stop of its adaptor, and not cancelled. -/
def driven (i : Nat) (runId : String) : List AdaptorEvent → Bool
  | [] => false
  | .startWorkflow _ j r :: past => (j = i && r = runId) || driven i runId past
  | .start _ j _ :: past | .shutdown j :: past => j ≠ i && driven i runId past
  | .cancelWorkflow j r :: past => !(j = i && r = runId) && driven i runId past
  | _ :: past => driven i runId past

/-- Both are there, and one object. -/
def same (own deps : Option RunActorDependencyBundle) : Bool :=
  own.any (fun own => deps.any (fun deps => deps.token = own.token))

/-- The bundle of the last start of any adaptor, unless the stop of an adaptor that was started
with that very bundle has cleared it. -/
def configured : List AdaptorEvent → Option RunActorDependencyBundle
  | [] => none
  | .start _ _ deps :: _ => some deps
  | .clear _ i :: past =>
    if same (startedWith i past) (configured past) then none else configured past
  | _ :: past => configured past

/-- The bundle of the last start in a context, or in the one that it was copied from before it
was copied, unless a stop there has cleared it. -/
def bound (context : Nat) : List AdaptorEvent → Option RunActorDependencyBundle
  | [] => none
  | .start c _ deps :: past => if c = context then some deps else bound context past
  | .clear c i :: past =>
    if c = context ∧ same (startedWith i past) (configured past) then none else bound context past
  | .fork parent child :: past => if child = context then bound parent past else bound context past
  | _ :: past => bound context past

/-- The bundle that is visible in a context. -/
def visible (context : Nat) (past : List AdaptorEvent) : Option RunActorDependencyBundle :=
  (bound context past).or (configured past)

/-- A new run of a running adaptor is started where a bundle with its services is visible. -/
def SeesOwn (past : List AdaptorEvent) : AdaptorEvent → Prop
  | .startWorkflow context i runId => running i past = true → driven i runId past = false →
    (visible context past).map RunActorDependencyBundle.services =
      (startedWith i past).map RunActorDependencyBundle.services
  | _ => True

/-- The process is as the history tells. -/
structure Recorded (past : List AdaptorEvent) (p : AdaptorProcess) : Prop where
  startedWith : ∀ i, (p.adaptor i).deps = startedWith i past
  running : ∀ i, (p.adaptor i).running = running i past
  driven : ∀ i g, (p.adaptor i).gateway = some g → ∀ runId, (g.workflows.get? runId).isSome = driven i runId past
  configured : p.bindings.fallback = configured past
  bound : ∀ context, p.bindings.contexts.get? context = bound context past

theorem get?_fork (b : Bindings) (parent child context : Nat) :
    (b.fork parent child).contexts.get? context =
      if child = context then b.contexts.get? parent else b.contexts.get? context := by
  unfold Bindings.fork
  cases hparent : b.contexts.get? parent with
  | some deps => simp only [Dict.get?_set, eq_comm]
  | none => simp only [Dict.get?_erase, eq_comm]

theorem fallback_fork (b : Bindings) (parent child : Nat) : (b.fork parent child).fallback = b.fallback := by
  unfold Bindings.fork
  cases b.contexts.get? parent <;> rfl

section
variable {past : List AdaptorEvent} {p p' : AdaptorProcess}

/-- An event at one adaptor. -/
theorem recorded_at (h : Recorded past p) {e : AdaptorEvent} {i : Nat} {a : LocalFSMAdaptor}
    (hadaptor : ∀ j, p'.adaptor j = if j = i then a else p.adaptor j)
    (hothers : ∀ j, j ≠ i → startedWith j (e :: past) = startedWith j past ∧
      running j (e :: past) = running j past ∧ ∀ runId, driven j runId (e :: past) = driven j runId past)
    (hdeps : a.deps = startedWith i (e :: past)) (hrunning : a.running = running i (e :: past))
    (hdriven : ∀ g, a.gateway = some g → ∀ runId, (g.workflows.get? runId).isSome = driven i runId (e :: past))
    (hconfigured : p'.bindings.fallback = configured (e :: past))
    (hbound : ∀ context, p'.bindings.contexts.get? context = bound context (e :: past)) :
    Recorded (e :: past) p' := by
  refine ⟨fun j => ?_, fun j => ?_, fun j => ?_, hconfigured, hbound⟩
  all_goals
    rw [hadaptor]
    by_cases hj : j = i
  · rw [if_pos hj, hj, hdeps]
  · rw [if_neg hj, (hothers j hj).1, h.startedWith]
  · rw [if_pos hj, hj, hrunning]
  · rw [if_neg hj, (hothers j hj).2.1, h.running]
  · rw [if_pos hj, hj]
    exact hdriven
  · rw [if_neg hj]
    intro g hg runId
    rw [(hothers j hj).2.2, h.driven j g hg]

theorem recorded_fork (h : Recorded past p) (parent child : Nat) :
    Recorded (.fork parent child :: past) (p.next (.fork parent child)) := by
  refine ⟨h.startedWith, h.running, h.driven, (fallback_fork ..).trans h.configured, fun context => ?_⟩
  show (p.bindings.fork parent child).contexts.get? context = _
  rw [get?_fork, h.bound, h.bound]
  rfl

theorem recorded_start (h : Recorded past p) (context i : Nat) (deps : RunActorDependencyBundle) :
    Recorded (.start context i deps :: past) (p.next (.start context i deps)) := by
  refine recorded_at h (p.adaptor_put i · _) (fun j hj => ?_) ?_ ?_ (fun g hg runId => ?_) rfl
    (fun context' => ?_)
  · simp [startedWith, running, driven, Ne.symm hj]
  · simp [startedWith, LocalFSMAdaptor.start]
  · simp [running, LocalFSMAdaptor.start]
  · obtain rfl := Option.some.inj hg
    simp [driven, Dict.get?, Dict.empty]
  · show (p.bindings.contexts.set context deps).get? context' = _
    rw [Dict.get?_set, bound, ← h.bound]
    simp only [eq_comm]

theorem recorded_shutdown (h : Recorded past p) (i : Nat) :
    Recorded (.shutdown i :: past) (p.next (.shutdown i)) := by
  refine recorded_at h (p.adaptor_put i · _) (fun j hj => ?_) (h.startedWith i) ?_ (fun g hg runId => ?_)
    h.configured h.bound
  · simp [startedWith, running, driven, Ne.symm hj]
  · simp [running, LocalFSMAdaptor.shutdown]
  · obtain ⟨g', _, rfl⟩ := Option.map_eq_some_iff.mp hg
    simp [driven, Dict.get?, Dict.empty]

theorem recorded_clear (h : Recorded past p) (context i : Nat) :
    Recorded (.clear context i :: past) (p.next (.clear context i)) := by
  have hdeps := h.startedWith i
  cases hown : (p.adaptor i).deps with
  | none =>
    rw [hown] at hdeps
    have hnext : p.next (.clear context i) = p := by simp only [AdaptorProcess.next, hown]
    rw [hnext]
    refine ⟨h.startedWith, h.running, h.driven, ?_, fun context' => ?_⟩
    · simp [configured, same, ← hdeps, h.configured]
    · simp [bound, same, ← hdeps, h.bound]
  | some own =>
    rw [hown] at hdeps
    have hnext : p.next (.clear context i) = { p with bindings := p.bindings.clear context own } := by
      simp only [AdaptorProcess.next, hown]
    have hsame : same (startedWith i past) (configured past) =
        p.bindings.fallback.any (fun deps => deps.token = own.token) := by
      rw [← hdeps, ← h.configured]
      rfl
    rw [hnext]
    refine ⟨h.startedWith, h.running, h.driven, ?_, fun context' => ?_⟩
    all_goals
      simp only [configured, bound, hsame, Bindings.clear]
      cases p.bindings.fallback.any (fun deps => deps.token = own.token)
    · exact h.configured
    · rfl
    · simpa using h.bound context'
    · simp only [if_true, and_true, Dict.get?_erase, ← h.bound]
      simp only [eq_comm]

theorem recorded_startWorkflow (h : Recorded past p) (context i : Nat) (runId : String) :
    Recorded (.startWorkflow context i runId :: past) (p.next (.startWorkflow context i runId)) := by
  refine recorded_at h (p.adaptor_put i · _) (fun j hj => ?_) (h.startedWith i) (h.running i)
    (fun g hg runId' => ?_) h.configured h.bound
  · simp [startedWith, running, driven, Ne.symm hj]
  · obtain ⟨g', hg', rfl⟩ := Option.map_eq_some_iff.mp hg
    have hbefore := h.driven i g' hg' runId'
    simp only [driven, decide_true, Bool.true_and, ← hbefore]
    by_cases hthere : runId ∈ g'.workflows.keys
    · rw [if_pos hthere]
      obtain ⟨workflow, hget⟩ := (g'.workflows.mem_keys_iff runId).mp hthere
      by_cases hrun : runId = runId'
      · simp [hrun ▸ hget]
      · simp [hrun]
    · rw [if_neg hthere, Dict.get?_set]
      by_cases hrun : runId = runId'
      · simp [hrun]
      · simp [hrun, Ne.symm hrun]

theorem recorded_cancelWorkflow (h : Recorded past p) (i : Nat) (runId : String) :
    Recorded (.cancelWorkflow i runId :: past) (p.next (.cancelWorkflow i runId)) := by
  refine recorded_at h (p.adaptor_put i · _) (fun j hj => ?_) (h.startedWith i) (h.running i)
    (fun g hg runId' => ?_) h.configured h.bound
  · simp [startedWith, running, driven, Ne.symm hj]
  · obtain ⟨g', hg', rfl⟩ := Option.map_eq_some_iff.mp hg
    simp only [driven, decide_true, Bool.true_and, ← h.driven i g' hg' runId', Dict.get?_erase]
    by_cases hrun : runId = runId'
    · simp [hrun]
    · simp [hrun, Ne.symm hrun]

theorem recorded_next (h : Recorded past p) (e : AdaptorEvent) : Recorded (e :: past) (p.next e) := by
  cases e with
  | fork parent child => exact recorded_fork h parent child
  | start context i deps => exact recorded_start h context i deps
  | shutdown i => exact recorded_shutdown h i
  | clear context i => exact recorded_clear h context i
  | startWorkflow context i runId => exact recorded_startWorkflow h context i runId
  | signalWorkflow i runId | queryProjection i runId =>
    exact ⟨h.startedWith, h.running, h.driven, h.configured, h.bound⟩
  | cancelWorkflow i runId => exact recorded_cancelWorkflow h i runId

/-- **What is bound, and to whom, is what the history tells.** -/
theorem recorded_run (events : List AdaptorEvent) :
    Recorded events.reverse (run AdaptorProcess.next {} events) := by
  suffices hfrom : ∀ past p, Recorded past p → Recorded (events.reverse ++ past) (run AdaptorProcess.next p events) by
    have hempty : Recorded [] {} :=
      ⟨fun _ => rfl, fun _ => rfl, fun _ _ h => absurd h (Option.some_ne_none _).symm, rfl, fun _ => rfl⟩
    exact List.append_nil events.reverse ▸ hfrom [] {} hempty
  induction events with
  | nil => exact fun past p h => h
  | cons e rest ih =>
    intro past p h
    rw [List.reverse_cons, List.append_assoc]
    exact ih (e :: past) (p.next e) (recorded_next h e)

theorem visible_eq (h : Recorded past p) (context : Nat) : p.bindings.visible context = visible context past := by
  unfold Bindings.visible visible
  rw [h.bound, h.configured]
  cases bound context past <;> rfl

theorem seesOwn_iff (h : Recorded past p) (hwired : p.Wired) (e : AdaptorEvent) :
    p.SeesOwn e ↔ SeesOwn past e := by
  cases e with
  | startWorkflow context i runId =>
    simp only [AdaptorProcess.SeesOwn, SeesOwn, visible_eq h, h.startedWith, ← h.running]
    refine imp_congr_right (fun hrunning => ?_)
    obtain ⟨g, hgateway⟩ := hwired i hrunning
    have hdriver : (p.adaptor i).driver runId = g.workflows.get? runId := by
      rw [LocalFSMAdaptor.driver, hgateway]
      rfl
    rw [hdriver, ← h.driven i g hgateway runId, Option.isSome_eq_false_iff, Option.isNone_iff_eq_none]
  | _ => exact Iff.rfl

end

end History

/-- **When adaptors are isolated.** In a process of any adaptors, contexts and events, every
run of a running adaptor is driven on that adaptor's own services throughout exactly when every
run is started where, by the history before, the services of its adaptor are visible. -/
theorem isolation_iff (events : List AdaptorEvent) :
    (∀ pre, pre <+: events → (run AdaptorProcess.next {} pre).Isolated) ↔
      ∀ pre e, pre ++ [e] <+: events → History.SeesOwn pre.reverse e := by
  have hnothing : ∀ i, (AdaptorProcess.adaptor {} i).running ≠ true := by
    intro i
    exact Bool.false_ne_true
  have hwired : AdaptorProcess.Wired {} := fun i hrunning => absurd hrunning (hnothing i)
  have halong : (∀ pre, pre <+: events → (run AdaptorProcess.next {} pre).Isolated) ↔
      Along AdaptorProcess.next AdaptorProcess.SeesOwn {} events := by
    refine forall_prefix_iff_along (J := fun p : AdaptorProcess => p.Isolated ∧ p.Wired)
      (A := fun _ _ => True) (fun _ h => h.1) (fun p e _ h => AdaptorProcess.isolated_next_iff h.1 h.2 e)
      (fun p e _ h hsees => ?_) ⟨fun i hrunning => ?_, hwired⟩ (.of_forall (fun _ _ => trivial) _ events)
    · exact ⟨(AdaptorProcess.isolated_next_iff h.1 h.2 e).mpr hsees, AdaptorProcess.wired_next h.2 e⟩
    · exact absurd hrunning (hnothing i)
  rw [halong, along_iff_forall_prefix]
  refine forall_congr' (fun pre => forall_congr' (fun e => imp_congr_right (fun _ => ?_)))
  have hkept : (run AdaptorProcess.next {} pre).Wired :=
    run_invariant (I := AdaptorProcess.Wired) (fun _ e h => AdaptorProcess.wired_next h e) hwired pre
  exact History.seesOwn_iff (History.recorded_run pre) hkept e

namespace Sample

def bundle (i : Nat) : RunActorDependencyBundle := ⟨i, ⟨i, i, i, i, i, none⟩⟩

/-- The second adaptor starts before a run of the first one does. -/
def shadowed : List AdaptorEvent :=
  [.start 0 1 (bundle 1), .start 0 2 (bundle 2), .startWorkflow 0 1 "run"]

end Sample

/-- The run of the first adaptor works on the services of the second. -/
theorem second_adaptor_shadows :
    ((run AdaptorProcess.next {} Sample.shadowed).adaptor 1).driver "run" =
      some ⟨some (Sample.bundle 2).services⟩ ∧
    ¬ (run AdaptorProcess.next {} Sample.shadowed).Isolated := by
  have hdriver : ((run AdaptorProcess.next {} Sample.shadowed).adaptor 1).driver "run" =
      some ⟨some (Sample.bundle 2).services⟩ := by decide +kernel
  refine ⟨hdriver, fun h => ?_⟩
  have hown := h 1 (by decide +kernel) "run" _ hdriver
  exact absurd hown (by decide +kernel)

end AgentKernel.Substrate
