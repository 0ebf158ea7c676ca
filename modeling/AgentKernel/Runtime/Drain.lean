import AgentKernel.Facade.Mutations
import AgentKernel.Lib.Run

/-! Stopping a runtime while mutations are under way.

To stop, the runtime has its facade turn mutations away and waits until none is in flight.
The guard of the facade tests the flag, counts the mutation in, and counts it out at its
end; every other mutation neither tests nor counts. The count is right in every run
(`Sound.step`), but a wait that returns `True` says nothing of what was not counted: the
stop is safe exactly when nothing unguarded, and nothing between its test and its count, is
under way when a wait returns, and nothing unguarded is issued later (`drain_safe_iff`).

Every `await` is a point where another task may run; that of a lock nobody holds is none
in practice, so the runs here are more than asyncio has (`drain_safe_iff_bystanding`). -/
namespace AgentKernel.Runtime
open Lib Facade

/-! ### The coordinator -/

/-- The count of operations in flight, and the event that is set when there are none. -/
structure DrainCoordinator where
  inFlightCount : Nat := 0
  drained : Bool := true
  agrees : drained = true ↔ inFlightCount = 0 := by decide

namespace DrainCoordinator

def enter (c : DrainCoordinator) : DrainCoordinator where
  inFlightCount := c.inFlightCount + 1
  drained := if c.inFlightCount + 1 > 0 then false else c.drained
  agrees := by simp

def exit (c : DrainCoordinator) : DrainCoordinator where
  inFlightCount := c.inFlightCount - 1
  drained := if c.inFlightCount - 1 = 0 then true else c.drained
  agrees := by
    have hagrees := c.agrees
    split
    · simp_all
    · constructor
      · intro hdrained
        have hzero := hagrees.mp hdrained
        omega
      · intro hzero
        contradiction

end DrainCoordinator

/-- Where a call of `stop` is in its wait. -/
inductive Stop where
  | called (timeoutMs : Int)
  | waiting
  | woken
  | returned (drained : Bool)
  deriving DecidableEq, Repr

namespace Stop

/-- The wait is about to return `True`. -/
def Ready (drained : Bool) : Stop → Prop
  | called timeoutMs => 0 < timeoutMs ∧ drained = true
  | woken => True
  | waiting | returned _ => False

/-- The wait goes on: without any time it gives up before it looks. -/
def resume (drained : Bool) : Stop → Stop
  | called timeoutMs =>
    if timeoutMs ≤ 0 then returned false else if drained then returned true else waiting
  | waiting => waiting
  | woken => returned true
  | returned result => returned result

/-- The event is set. A waiter that is woken returns `True`, whatever happens to the event
before it runs. -/
def wake : Stop → Stop
  | waiting => woken
  | stop => stop

def timeOut : Stop → Stop
  | waiting | woken => returned false
  | stop => stop

def hasReturned : Stop → Bool
  | returned _ => true
  | called _ | waiting | woken => false

end Stop

/-! ### Mutations under way -/

/-- Where a mutation is. -/
inductive Stage where
  /-- The flag was tested; the coordinator has still to count. -/
  | entering
  | waiting (a : Await)
  | appending
  | exiting (outcome : Outcome)
  | ended (outcome : Outcome)

namespace Stage

def isGuard : Stage → Bool
  | entering | exiting _ => true
  | waiting _ | appending | ended _ => false

/-- Inside the guard, if there is one. -/
def isInside : Stage → Bool
  | waiting _ | appending | exiting _ => true
  | entering | ended _ => false

def isEnded : Stage → Bool
  | ended _ => true
  | entering | waiting _ | appending | exiting _ => false

end Stage

/-- A mutation under way; only a guarded one is at the guard. -/
structure Task where
  mutation : Mutation
  stage : Stage
  guards : stage.isGuard = true → mutation.guarded = true

/-- Between its enter and its exit. -/
def Task.inFlight (t : Task) : Bool := t.mutation.guarded && t.stage.isInside

/-- Where a segment leaves its mutation. -/
def stageAfter (mutation : Mutation) : Segment → Stage
  | .forwards a => .waiting a
  | .appends _ => .appending
  | .ends outcome => if mutation.guarded then .exiting outcome else .ended outcome

theorem stageAfter_guards (mutation : Mutation) (segment : Segment)
    (h : (stageAfter mutation segment).isGuard = true) : mutation.guarded = true := by
  cases segment with
  | forwards a => cases h
  | appends commit => cases h
  | ends outcome =>
    simp only [stageAfter] at h
    split at h
    next hguarded => exact hguarded
    · cases h

/-- A mutation after a segment. -/
def taskAfter (mutation : Mutation) (segment : Segment) : Task where
  mutation := mutation
  stage := stageAfter mutation segment
  guards := stageAfter_guards mutation segment

@[simp] theorem inFlight_taskAfter (mutation : Mutation) (segment : Segment) :
    (taskAfter mutation segment).inFlight = mutation.guarded := by
  simp only [Task.inFlight, taskAfter]
  cases hguarded : mutation.guarded with
  | false => rfl
  | true => cases segment <;> simp [stageAfter, hguarded, Stage.isInside]

/-! ### The runtime -/

structure KernelRuntime where
  draining : Bool := false
  stopped : Bool := false
  memory : FacadeMemory := {}
  coordinator : DrainCoordinator := {}
  tasks : List Task := []
  stops : List Stop := []
  /-- What the facade has forwarded to the gateway. -/
  forwarded : List GatewayCall := []

/-- A mutation is issued, or it or a call of `stop` goes on from where it waits. -/
inductive Move where
  | issue (mutation : Mutation) (env : Surroundings)
  | resume (i : Nat) (env : Surroundings) (reply : Except Failure Answer)
  | stop (timeoutMs : Int)
  | resumeStop (i : Nat)
  | timeOut (i : Nat)
  | finishStop

namespace KernelRuntime

/-- A mutation has run a segment. -/
def goOn (k : KernelRuntime) (i : Nat) (t : Task) (r : FacadeMemory × Segment) : KernelRuntime :=
  { k with
    memory := r.1
    tasks := k.tasks.set i (taskAfter t.mutation r.2)
    forwarded := k.forwarded ++ r.2.calls }

/-- A mutation is called: the flag is tested by the guarded ones, and the others set out. -/
def issue (k : KernelRuntime) (mutation : Mutation) (env : Surroundings) : KernelRuntime :=
  match hguard : mutation.guard? with
  | some operation =>
    { k with
      tasks := k.tasks ++
        [if k.draining then ⟨mutation, .ended (.raised (isDraining operation)), (fun h => nomatch h)⟩
         else ⟨mutation, .entering, fun _ => by simp [Mutation.guarded, hguard]⟩] }
  | none =>
    let r := mutation.start k.memory env
    { k with
      memory := r.1
      tasks := k.tasks ++ [taskAfter mutation r.2]
      forwarded := k.forwarded ++ r.2.calls }

/-- The `exit` of the guard. Setting the event wakes all who wait for it. -/
def exit (k : KernelRuntime) (i : Nat) (t : Task) (outcome : Outcome) : KernelRuntime :=
  { k with
    coordinator := k.coordinator.exit
    tasks := k.tasks.set i ⟨t.mutation, .ended outcome, (fun h => nomatch h)⟩
    stops := if k.coordinator.inFlightCount - 1 = 0 then k.stops.map Stop.wake else k.stops }

/-- A mutation goes on. -/
def resume (k : KernelRuntime) (i : Nat) (env : Surroundings) (reply : Except Failure Answer) :
    KernelRuntime :=
  match k.tasks[i]? with
  | none => k
  | some t =>
    match t.stage with
    | .entering =>
      ({ k with coordinator := k.coordinator.enter } : KernelRuntime).goOn i t
        (t.mutation.start k.memory env)
    | .waiting a => k.goOn i t (a.resume k.memory env reply)
    | .appending => k.goOn i t (k.memory, resumeAppend reply)
    | .exiting outcome => k.exit i t outcome
    | .ended _ => k

def step (k : KernelRuntime) : Move → KernelRuntime
  | .issue mutation env => k.issue mutation env
  | .resume i env reply => k.resume i env reply
  | .stop timeoutMs =>
    if k.stopped then k else { k with draining := true, stops := k.stops ++ [.called timeoutMs] }
  | .resumeStop i => { k with stops := k.stops.modify i (Stop.resume k.coordinator.drained) }
  | .timeOut i => { k with stops := k.stops.modify i Stop.timeOut }
  -- The rest of `stop`: it shuts the substrate down and does not touch the facade.
  | .finishStop => { k with stopped := k.stopped || k.stops.any Stop.hasReturned }

/-! ### What is asked of a stop -/

/-- The guarded operations between their enter and their exit. -/
def inFlight (k : KernelRuntime) : Nat := k.tasks.countP Task.inFlight

/-- A wait has returned `True`. -/
def Drained (k : KernelRuntime) : Prop := .returned true ∈ k.stops

/-- No mutation is in progress. -/
def Quiet (k : KernelRuntime) : Prop := ∀ t ∈ k.tasks, t.stage.isEnded = true

/-- In every state the count is that of the operations in flight, once a wait has returned
`True` no mutation is in progress, and nothing is forwarded from then on. -/
structure DrainSafe (k : KernelRuntime) (moves : List Move) : Prop where
  counted : ∀ pre, pre <+: moves →
    (run step k pre).coordinator.inFlightCount = (run step k pre).inFlight
  quiet : ∀ pre, pre <+: moves → (run step k pre).Drained → (run step k pre).Quiet
  silent : ∀ pre move, pre ++ [move] <+: moves → (run step k pre).Drained →
    (run step k (pre ++ [move])).forwarded = (run step k pre).forwarded

/-- The wait of a call is about to return `True`. -/
def Ready (k : KernelRuntime) (i : Nat) : Prop :=
  ∃ stop, k.stops[i]? = some stop ∧ stop.Ready k.coordinator.drained

/-- Nothing is counted, nothing is about to be, and what is not counted is over. -/
structure Clear (k : KernelRuntime) : Prop where
  zero : k.coordinator.inFlightCount = 0
  entered : ∀ t ∈ k.tasks, t.stage ≠ .entering
  unguarded : ∀ t ∈ k.tasks, t.mutation.guarded = false → t.stage.isEnded = true

/-- A wait returns `True` only when all is clear, and after that no mutation is issued that
is not guarded, unless it is refused on the spot. -/
def Admissible (k : KernelRuntime) : Move → Prop
  | .issue mutation env => k.Drained → mutation.guarded = true ∨ mutation.Refused k.memory env
  | .resumeStop i => k.Ready i → k.Clear
  | .resume .. | .stop _ | .timeOut _ | .finishStop => True

/-! ### The count -/

/-- One task is put in the place of another. -/
theorem countP_set_add {α : Type} (p : α → Bool) {l : List α} {i : Nat} {a : α} (h : l[i]? = some a) (b : α) :
    (l.set i b).countP p + (if p a then 1 else 0) = l.countP p + (if p b then 1 else 0) := by
  obtain ⟨hi, rfl⟩ := List.getElem?_eq_some_iff.mp h
  rw [List.countP_set hi]
  cases hp : p l[i] with
  | false => simp
  | true =>
    have hpos : 0 < l.countP p := List.countP_pos_iff.mpr ⟨_, List.getElem_mem hi, hp⟩
    simp only [if_true]
    omega

section
variable {k : KernelRuntime} {i : Nat} {t : Task}

theorem inFlight_append (k : KernelRuntime) (t : Task) :
    (k.tasks ++ [t]).countP Task.inFlight = k.inFlight + if t.inFlight then 1 else 0 := by
  rw [List.countP_append, List.countP_singleton]
  rfl

/-- A mutation that was in flight, or that is not guarded, is as much in flight after a segment. -/
theorem inFlight_goOn (h : k.tasks[i]? = some t) (hinside : t.inFlight = t.mutation.guarded)
    (r : FacadeMemory × Segment) : (k.goOn i t r).inFlight = k.inFlight := by
  have hset := countP_set_add Task.inFlight h (taskAfter t.mutation r.2)
  rw [inFlight_taskAfter, hinside] at hset
  exact Nat.add_right_cancel hset

/-- A mutation at the guard is counted in with its first segment. -/
theorem inFlight_goOn_entering (h : k.tasks[i]? = some t) (hstage : t.stage = .entering)
    (r : FacadeMemory × Segment) : (k.goOn i t r).inFlight = k.inFlight + 1 := by
  have hguarded : t.mutation.guarded = true := t.guards (by rw [hstage]; rfl)
  have houtside : t.inFlight = false := by rw [Task.inFlight, hstage, Stage.isInside, Bool.and_false]
  have hset := countP_set_add Task.inFlight h (taskAfter t.mutation r.2)
  rw [inFlight_taskAfter, hguarded, houtside] at hset
  exact hset

theorem inFlight_exit {outcome : Outcome} (h : k.tasks[i]? = some t) (hstage : t.stage = .exiting outcome) :
    (k.exit i t outcome).inFlight + 1 = k.inFlight := by
  have hguarded : t.mutation.guarded = true := t.guards (by rw [hstage]; rfl)
  have hinside : t.inFlight = true := by rw [Task.inFlight, hstage, hguarded]; rfl
  have hset := countP_set_add Task.inFlight h ⟨t.mutation, .ended outcome, (fun h => nomatch h)⟩
  rw [hinside, Task.inFlight, Stage.isInside, Bool.and_false] at hset
  exact hset

/-- What holds in every run: the count is right, and whoever waits has had the facade turn
mutations away. -/
structure Sound (k : KernelRuntime) : Prop where
  counted : k.coordinator.inFlightCount = k.inFlight
  draining : k.stops ≠ [] → k.draining = true

theorem issue_of_unguarded (k : KernelRuntime) {mutation : Mutation} (env : Surroundings)
    (h : mutation.guarded = false) :
    k.issue mutation env =
      { k with
        memory := (mutation.start k.memory env).1
        tasks := k.tasks ++ [taskAfter mutation (mutation.start k.memory env).2]
        forwarded := k.forwarded ++ (mutation.start k.memory env).2.calls } := by
  unfold issue
  split
  next operation hguard => simp [Mutation.guarded, hguard] at h
  · rfl

/-- A guarded mutation is turned away or comes to the counter. -/
theorem issue_of_guarded (k : KernelRuntime) {mutation : Mutation} (env : Surroundings)
    (h : mutation.guarded = true) :
    ∃ t, k.issue mutation env = { k with tasks := k.tasks ++ [t] } ∧ t.inFlight = false ∧
      (k.draining = true → t.stage.isEnded = true) := by
  unfold issue
  split
  next operation hguard =>
    refine ⟨_, rfl, ?_, ?_⟩
    · split
      · exact Bool.and_false _
      · exact Bool.and_false _
    · intro hdraining
      rw [if_pos hdraining]
      rfl
  next hguard => simp [Mutation.guarded, hguard] at h

namespace Sound

theorem issue (h : Sound k) (mutation : Mutation) (env : Surroundings) : Sound (k.issue mutation env) := by
  cases hguarded : mutation.guarded with
  | true =>
    obtain ⟨t, hissue, houtside, -⟩ := issue_of_guarded k env hguarded
    rw [hissue]
    refine ⟨?_, h.draining⟩
    show k.coordinator.inFlightCount = (k.tasks ++ [t]).countP Task.inFlight
    rw [inFlight_append, houtside, h.counted]
    rfl
  | false =>
    rw [issue_of_unguarded k env hguarded]
    refine ⟨?_, h.draining⟩
    show k.coordinator.inFlightCount = (k.tasks ++ [taskAfter mutation _]).countP Task.inFlight
    rw [inFlight_append, inFlight_taskAfter, hguarded, h.counted]
    rfl

theorem resume (h : Sound k) (i : Nat) (env : Surroundings) (reply : Except Failure Answer) :
    Sound (k.resume i env reply) := by
  unfold KernelRuntime.resume
  cases hget : k.tasks[i]? with
  | none => exact h
  | some t =>
    have hinside : t.stage.isInside = true → t.inFlight = t.mutation.guarded := by
      intro hinside
      rw [Task.inFlight, hinside, Bool.and_true]
    simp only
    cases hstage : t.stage with
    | entering =>
      refine ⟨?_, h.draining⟩
      show k.coordinator.inFlightCount + 1 = _
      rw [h.counted]
      exact (inFlight_goOn_entering (k := { k with coordinator := k.coordinator.enter }) hget hstage _).symm
    | waiting a =>
      refine ⟨?_, h.draining⟩
      rw [inFlight_goOn hget (hinside (by rw [hstage]; rfl))]
      exact h.counted
    | appending =>
      refine ⟨?_, h.draining⟩
      rw [inFlight_goOn hget (hinside (by rw [hstage]; rfl))]
      exact h.counted
    | exiting outcome =>
      refine ⟨?_, ?_⟩
      · show k.coordinator.inFlightCount - 1 = _
        rw [h.counted, ← inFlight_exit hget hstage]
        rfl
      · intro hstops
        refine h.draining (fun hnil => hstops ?_)
        simp only [KernelRuntime.exit, hnil, List.map_nil, ite_self]
    | ended outcome => exact h

theorem step (h : Sound k) (move : Move) : Sound (k.step move) := by
  cases move with
  | issue mutation env => exact h.issue mutation env
  | resume i env reply => exact h.resume i env reply
  | stop timeoutMs =>
    simp only [KernelRuntime.step]
    split
    · exact h
    · exact ⟨h.counted, fun _ => rfl⟩
  | resumeStop i | timeOut i =>
    refine ⟨h.counted, fun hstops => h.draining (fun hnil => hstops ?_)⟩
    simp [KernelRuntime.step, hnil]
  | finishStop => exact ⟨h.counted, h.draining⟩

end Sound
end
end KernelRuntime
end AgentKernel.Runtime
