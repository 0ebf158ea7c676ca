import AgentKernel.Lib.Links
import AgentKernel.Lib.Run
import AgentKernel.Lib.Threads
import Mathlib.Data.Fintype.Basic

/-! What a stop of the runtime closes.

When it starts, the runtime collects what it will have to close: the event log and whatever that
wraps, the bundle that hangs on any of these, and the dedupe store. The wrapped logs are found by
following links, which may go round in a circle. A stop closes them one after the other once the
substrate has stopped, and goes on whatever a `close` raises, so a runtime that counts as stopped
has closed everything that was collected (`stopped_closed`).

The flag is tested when a stop begins and set when it ends, and between the two it waits. So stops
that overlap each close everything, as does the stop after one that was cancelled while it closed;
in runs without these, a stop closes everything once (`closed_once`). Beyond that, a log that
exports its events closes the log it wraps, which the stop has collected, too. -/
namespace AgentKernel.Runtime.Shutdown
open Lib

/-! ### What is collected -/

/-- What the runtime looks at of an object. -/
structure Resource (n : Nat) where
  inner : Option (Fin n) := none
  /-- The `close` of an exporting log closes the log it wraps. -/
  closesInner : Bool := false
  kernelColocatedBundle : Option (Fin n) := none
  hasClose : Bool := true
  deriving DecidableEq, Repr

/-- The objects there are. -/
abbrev Heap (n : Nat) := Fin n → Resource n

structure Collected (n : Nat) where
  seen : List (Fin n) := []
  closeables : List (Fin n) := []

section
variable {n : Nat} (heap : Heap n)

/-- `_register`. -/
def register (c : Collected n) : Option (Fin n) → Collected n
  | none => c
  | some candidate =>
    if candidate ∈ c.seen then c
    else
      { seen := c.seen ++ [candidate]
        closeables :=
          if (heap candidate).hasClose then c.closeables ++ [candidate] else c.closeables }

/-- The event log, what it wraps, what that wraps, and so on. -/
def logChain (eventLog : Fin n) : List (Fin n) := followAll (fun r => (heap r).inner) eventLog

/-- `_collect_closeables`. -/
def collectCloseables (eventLog : Fin n) (dedupeStore : Option (Fin n)) : List (Fin n) :=
  (run (register heap) {}
    ((logChain heap eventLog).map some ++
      ((logChain heap eventLog).map (fun log => (heap log).kernelColocatedBundle) ++
        [dedupeStore]))).closeables

/-- What belongs to the runtime: the logs, what hangs on them, and the store. -/
def Owned (eventLog : Fin n) (dedupeStore : Option (Fin n)) (r : Fin n) : Prop :=
  Linked (fun r => (heap r).inner) eventLog r ∨
    (∃ log, Linked (fun r => (heap r).inner) eventLog log ∧ (heap log).kernelColocatedBundle = some r) ∨
    dedupeStore = some r

/-- The candidates were registered, each once. -/
structure Registered (candidates : List (Option (Fin n))) (c : Collected n) : Prop where
  nodup : c.seen.Nodup
  mem_seen : ∀ r, r ∈ c.seen ↔ some r ∈ candidates
  closeables : c.closeables = c.seen.filter (fun r => (heap r).hasClose)

variable {heap} {c : Collected n} {candidates : List (Option (Fin n))}

theorem registered_step (h : Registered heap candidates c) (candidate : Option (Fin n)) :
    Registered heap (candidates ++ [candidate]) (register heap c candidate) := by
  cases candidate with
  | none => exact ⟨h.nodup, fun r => by simp [h.mem_seen, register], h.closeables⟩
  | some a =>
    simp only [register]
    split
    · rename_i hseen
      refine ⟨h.nodup, fun r => ?_, h.closeables⟩
      rw [List.mem_append, List.mem_singleton, ← h.mem_seen]
      exact ⟨.inl, fun hr => hr.elim id (fun hr => Option.some.inj hr ▸ hseen)⟩
    · rename_i hnew
      refine ⟨List.concat_eq_append ▸ h.nodup.concat hnew, fun r => ?_, ?_⟩
      · rw [List.mem_append, List.mem_append, h.mem_seen, List.mem_singleton, List.mem_singleton,
          Option.some.injEq]
      · rw [List.filter_append, ← h.closeables]
        cases hclose : (heap a).hasClose <;> simp [hclose]

theorem registered_run (h : Registered heap candidates c) (more : List (Option (Fin n))) :
    Registered heap (candidates ++ more) (run (register heap) c more) := by
  induction more generalizing c candidates with
  | nil => exact (List.append_nil candidates).symm ▸ h
  | cons first rest ih =>
    rw [run_cons, List.append_cons]
    exact ih (registered_step h first)

variable (heap) (eventLog : Fin n) (dedupeStore : Option (Fin n))

theorem registered_nil : Registered heap [] {} :=
  ⟨List.nodup_nil, fun _ => ⟨nofun, nofun⟩, rfl⟩

theorem nodup_collectCloseables : (collectCloseables heap eventLog dedupeStore).Nodup := by
  have h := registered_run (registered_nil heap)
    ((logChain heap eventLog).map some ++
      ((logChain heap eventLog).map (fun log => (heap log).kernelColocatedBundle) ++ [dedupeStore]))
  rw [collectCloseables, h.closeables]
  exact h.nodup.filter _

/-- **What is collected is what belongs to the runtime and can be closed.** -/
theorem mem_collectCloseables (r : Fin n) :
    r ∈ collectCloseables heap eventLog dedupeStore ↔
      (heap r).hasClose = true ∧ Owned heap eventLog dedupeStore r := by
  have h := registered_run (registered_nil heap)
    ((logChain heap eventLog).map some ++
      ((logChain heap eventLog).map (fun log => (heap log).kernelColocatedBundle) ++ [dedupeStore]))
  rw [collectCloseables, h.closeables, List.mem_filter, h.mem_seen, and_comm]
  refine and_congr_right (fun _ => ?_)
  simp only [List.nil_append, List.mem_append, List.mem_map, List.mem_singleton, logChain, mem_followAll,
    Option.some.injEq, exists_eq_right, Owned, eq_comm (a := some r)]

theorem prefix_register (c : Collected n) (candidate : Option (Fin n)) :
    c.closeables <+: (register heap c candidate).closeables := by
  cases candidate with
  | none => exact List.prefix_rfl
  | some a =>
    simp only [register]
    split
    · exact List.prefix_rfl
    · split
      · exact List.prefix_append _ _
      · exact List.prefix_rfl

theorem prefix_run_register (c : Collected n) (candidates : List (Option (Fin n))) :
    c.closeables <+: (run (register heap) c candidates).closeables :=
  run_invariant (I := fun c' => c.closeables <+: c'.closeables)
    (fun c' candidate h => h.trans (prefix_register heap c' candidate)) List.prefix_rfl candidates

/-- Candidates that are all new are seen in their order. -/
theorem seen_run_register {c : Collected n} {logs : List (Fin n)} (h : (c.seen ++ logs).Nodup) :
    (run (register heap) c (logs.map some)).seen = c.seen ++ logs := by
  induction logs generalizing c with
  | nil => exact (List.append_nil c.seen).symm
  | cons first rest ih =>
    have hnew : first ∉ c.seen := fun hseen =>
      (List.nodup_append.mp h).2.2 first hseen first List.mem_cons_self rfl
    have hseen : (register heap c (some first)).seen = c.seen ++ [first] := by
      simp only [register, if_neg hnew]
    rw [List.map_cons, run_cons, ih, hseen, List.append_assoc, List.singleton_append]
    rwa [hseen, List.append_assoc, List.singleton_append]

/-- The logs stand first, and each before the one it wraps. -/
theorem collectCloseables_order :
    (logChain heap eventLog).filter (fun r => (heap r).hasClose) <+:
        collectCloseables heap eventLog dedupeStore ∧
      (logChain heap eventLog).IsChain (fun a b => (heap a).inner = some b) := by
  have hlogs := registered_run (registered_nil heap) ((logChain heap eventLog).map some)
  have hnew : (({} : Collected n).seen ++ logChain heap eventLog).Nodup := nodup_followAll eventLog
  have hseen := seen_run_register heap hnew
  refine ⟨?_, isChain_followAll eventLog⟩
  rw [collectCloseables, run_append]
  have hprefix := prefix_run_register heap (run (register heap) {} ((logChain heap eventLog).map some))
  rw [hlogs.closeables, hseen] at hprefix
  exact hprefix _

end

/-! ### Stopping -/

/-- What the end of an `await` gives. -/
inductive Reply where
  | ok
  | raised
  | cancelled
  deriving DecidableEq, Repr

/-- Where a call of `stop` waits. -/
inductive StopCall (n : Nat) where
  | draining
  /-- For a background task to end, with so many after it. -/
  | cancelling (left : Nat)
  | stopping
  /-- For the last of so many resources to be closed. The `close` that runs is its own, or that of
  a log it closes in turn. -/
  | closing (begun : Nat) (running : Fin n)
  | ended (begun : Nat)
  deriving DecidableEq, Repr

section
variable {n : Nat}

/-- The number of resources whose `close` the call has called. -/
def StopCall.begun : StopCall n → Nat
  | closing begun _ | ended begun => begun
  | draining | cancelling _ | stopping => 0

def StopCall.hasEnded : StopCall n → Bool
  | ended _ => true
  | draining | cancelling _ | stopping | closing _ _ => false

/-- The resource whose `close` runs. -/
def StopCall.running? : StopCall n → Option (Fin n)
  | closing _ running => some running
  | draining | cancelling _ | stopping | ended _ => none

/-- What a `close` closes in turn. -/
def delegated (heap : Heap n) (r : Fin n) : Option (Fin n) :=
  if (heap r).closesInner then (heap r).inner.filter (fun inner => (heap inner).hasClose) else none

end

structure KernelRuntime (n : Nat) where
  stopped : Bool := false
  calls : List (StopCall n) := []
  /-- The objects whose `close` a stop has called itself, in order. -/
  closed : List (Fin n) := []
  /-- The logs whose `close` was called by the `close` of another. -/
  nested : List (Fin n) := []

inductive Move where
  | stop
  /-- The `close` a call waits for closes another log in turn. -/
  | delegate (i : Nat)
  | resume (i : Nat) (reply : Reply)
  deriving DecidableEq, Repr

namespace KernelRuntime

section
variable {n : Nat}

def setCall (k : KernelRuntime n) (i : Nat) (call : StopCall n) : KernelRuntime n :=
  { k with calls := k.calls.set i call }

/-- The next background task is waited for, or the substrate to stop. -/
def afterTask : Nat → StopCall n
  | 0 => .stopping
  | left + 1 => .cancelling left

variable (heap : Heap n) (closeables : List (Fin n)) (backgroundTasks : Nat)

/-- The next resource is closed, and after the last the runtime counts as stopped. -/
def closeNext (k : KernelRuntime n) (i begun : Nat) : KernelRuntime n :=
  match closeables[begun]? with
  | some r => { k.setCall i (.closing (begun + 1) r) with closed := k.closed ++ [r] }
  | none => { k.setCall i (.ended begun) with stopped := true }

/-- The `close` that runs calls that of the log it wraps, and waits for it. -/
def delegate (k : KernelRuntime n) (i : Nat) : KernelRuntime n :=
  match k.calls[i]? with
  | some (.closing begun running) =>
    match delegated heap running with
    | some r => { k.setCall i (.closing begun r) with nested := k.nested ++ [r] }
    | none => k
  | _ => k

/-- A call of `stop` goes on. The waits for background tasks end in any case, and those for a
resource unless the call is cancelled; a `close` returns only after what it closes in turn. -/
def resume (k : KernelRuntime n) (i : Nat) (reply : Reply) : KernelRuntime n :=
  match k.calls[i]? with
  | some .draining =>
    if reply = .ok then k.setCall i (afterTask backgroundTasks) else k.setCall i (.ended 0)
  | some (.cancelling left) => k.setCall i (afterTask left)
  | some .stopping => if reply = .ok then closeNext closeables k i 0 else k.setCall i (.ended 0)
  | some (.closing begun running) =>
    if reply = .cancelled then k.setCall i (.ended begun)
    else if reply = .ok ∧ (delegated heap running).isSome then k
    else closeNext closeables k i begun
  | some (.ended _) | none => k

def step (k : KernelRuntime n) : Move → KernelRuntime n
  | .stop => if k.stopped then k else { k with calls := k.calls ++ [.draining] }
  | .delegate i => delegate heap k i
  | .resume i reply => resume heap closeables backgroundTasks k i reply

theorem setCall_self {k : KernelRuntime n} {i : Nat} {call : StopCall n} (h : k.calls[i]? = some call) :
    k.setCall i call = k := by
  obtain ⟨hi, heq⟩ := List.getElem?_eq_some_iff.mp h
  rw [setCall, ← heq, List.set_getElem_self hi]

/-- What a call does when it goes on: it waits for something else or ends, with nothing closed; it
closes the next resource; or it has closed the last. What it closes in turn comes before. -/
theorem resume_cases (k : KernelRuntime n) {i : Nat} {call : StopCall n} (h : k.calls[i]? = some call)
    (reply : Reply) :
    (∃ call', resume heap closeables backgroundTasks k i reply = k.setCall i call' ∧
      call'.begun = call.begun ∧
      (call' = call ∨ call'.running? = none ∧ (reply = .ok → call.running? = none)) ∧
      (call'.hasEnded = true → 0 < call.begun → call.hasEnded = true ∨ reply = .cancelled)) ∨
    ((reply = .ok → ∀ running, call.running? = some running → delegated heap running = none) ∧
      ((∃ r, closeables[call.begun]? = some r ∧
        resume heap closeables backgroundTasks k i reply =
          { k.setCall i (.closing (call.begun + 1) r) with closed := k.closed ++ [r] }) ∨
      (closeables.length ≤ call.begun ∧
        resume heap closeables backgroundTasks k i reply =
          { k.setCall i (.ended call.begun) with stopped := true }))) := by
  have hafter : ∀ left, (afterTask left : StopCall n).begun = 0 ∧
      (afterTask left : StopCall n).running? = none := fun left => by cases left <;> exact ⟨rfl, rfl⟩
  have hclose : (∃ r, closeables[call.begun]? = some r ∧
      closeNext closeables k i call.begun =
        { k.setCall i (.closing (call.begun + 1) r) with closed := k.closed ++ [r] }) ∨
      (closeables.length ≤ call.begun ∧
        closeNext closeables k i call.begun =
          { k.setCall i (.ended call.begun) with stopped := true }) := by
    unfold closeNext
    cases hnext : closeables[call.begun]? with
    | none => exact .inr ⟨List.getElem?_eq_none_iff.mp hnext, rfl⟩
    | some r => exact .inl ⟨r, rfl, rfl⟩
  have hnothing : ∀ {p : Prop}, 0 < 0 → p := fun hbegun => absurd hbegun (Nat.lt_irrefl 0)
  unfold resume
  rw [h]
  cases call with
  | draining =>
    dsimp only
    split
    · exact .inl ⟨_, rfl, (hafter _).1, .inr ⟨(hafter _).2, fun _ => rfl⟩, fun _ => hnothing⟩
    · exact .inl ⟨_, rfl, rfl, .inr ⟨rfl, fun _ => rfl⟩, fun _ => hnothing⟩
  | cancelling left =>
    exact .inl ⟨_, rfl, (hafter _).1, .inr ⟨(hafter _).2, fun _ => rfl⟩, fun _ => hnothing⟩
  | stopping =>
    dsimp only
    split
    · exact .inr ⟨fun _ _ hrunning => absurd hrunning.symm (Option.some_ne_none _), hclose⟩
    · exact .inl ⟨_, rfl, rfl, .inr ⟨rfl, fun _ => rfl⟩, fun _ => hnothing⟩
  | closing begun running =>
    dsimp only
    split
    · rename_i hcancelled
      refine .inl ⟨_, rfl, rfl, .inr ⟨rfl, fun hok => ?_⟩, fun _ _ => .inr hcancelled⟩
      rw [hcancelled] at hok
      cases hok
    · split
      · exact .inl ⟨_, (setCall_self h).symm, rfl, .inl rfl, fun hended => absurd hended Bool.false_ne_true⟩
      · rename_i hwait
        refine .inr ⟨fun hok _ hrunning => ?_, hclose⟩
        obtain rfl := Option.some.inj hrunning
        exact Option.not_isSome_iff_eq_none.mp (fun hsome => hwait ⟨hok, hsome⟩)
  | ended begun => exact .inl ⟨_, (setCall_self h).symm, rfl, .inl rfl, fun _ _ => .inl rfl⟩

/-- A nested `close` is called, or nothing happens. -/
theorem delegate_cases (k : KernelRuntime n) (i : Nat) :
    delegate heap k i = k ∨ ∃ begun running r, k.calls[i]? = some (.closing begun running) ∧
      delegated heap running = some r ∧
      delegate heap k i = { k.setCall i (.closing begun r) with nested := k.nested ++ [r] } := by
  unfold delegate
  split
  · rename_i begun running hcall
    cases hr : delegated heap running with
    | none => exact .inl rfl
    | some r => exact .inr ⟨begun, running, r, hcall, hr, rfl⟩
  · exact .inl rfl

/-! ### Any number of stops -/

/-- The calls have closed what was closed, and one of them everything if the runtime counts as
stopped. -/
structure Sound (k : KernelRuntime n) : Prop where
  count : ∀ r, k.closed.count r = (k.calls.flatMap (fun call => closeables.take call.begun)).count r
  stopped : k.stopped = true → ∃ call ∈ k.calls, closeables.length ≤ call.begun

variable {heap closeables backgroundTasks} {k : KernelRuntime n}

/-- A call goes on, and what it has closed is what it had closed and what is closed now. -/
theorem Sound.setCall (h : Sound closeables k) {i : Nat} {call : StopCall n}
    (hcall : k.calls[i]? = some call) (call' : StopCall n) (hbegun : call.begun ≤ call'.begun) (now : List (Fin n))
    (hnow : closeables.take call'.begun = closeables.take call.begun ++ now) (stopped : Bool)
    (hstopped : stopped = true → k.stopped = true ∨ closeables.length ≤ call'.begun)
    (nested : List (Fin n)) :
    Sound closeables
      { stopped := stopped, calls := k.calls.set i call', closed := k.closed ++ now, nested := nested } where
  count r := by
    have hheld := countP_held_set (fun call => closeables.take call.begun) (· == r) hcall call'
    have hcount := h.count r
    simp only [← List.count_eq_countP] at hheld
    rw [hnow, List.count_append] at hheld
    have hclosed : (k.closed ++ now).count r =
        ((k.calls.set i call').flatMap (fun call => closeables.take call.begun)).count r := by
      rw [List.count_append]
      omega
    exact hclosed
  stopped hset := by
    obtain ⟨hi, _⟩ := List.getElem?_eq_some_iff.mp hcall
    rcases hstopped hset with hstopped | hlength
    · obtain ⟨done, hdone, hlength⟩ := h.stopped hstopped
      obtain ⟨j, hj, rfl⟩ := List.getElem_of_mem hdone
      by_cases hij : i = j
      · subst hij
        have heq : call = k.calls[i] := (Option.some.inj (hcall.symm.trans (List.getElem?_eq_getElem hj)))
        exact ⟨call', List.mem_set hi call', hlength.trans (heq ▸ hbegun)⟩
      · refine ⟨k.calls[j], ?_, hlength⟩
        rw [← List.getElem_set_of_ne hij call' (by simpa using hj)]
        exact List.getElem_mem _
    · exact ⟨call', List.mem_set hi call', hlength⟩

theorem Sound.step (h : Sound closeables k) (move : Move) :
    Sound closeables (step heap closeables backgroundTasks k move) := by
  cases move with
  | stop =>
    simp only [KernelRuntime.step]
    split
    · exact h
    · rename_i hrunning
      refine ⟨fun r => ?_, fun hstopped => absurd hstopped hrunning⟩
      rw [List.flatMap_append, List.flatMap_singleton]
      exact (h.count r).trans (congrArg (List.count r) (List.append_nil _).symm)
  | delegate i =>
    simp only [KernelRuntime.step]
    rcases delegate_cases heap k i with hsame | ⟨begun, running, r, hcall, _, hdelegate⟩
    · rwa [hsame]
    · rw [hdelegate]
      have hset := h.setCall hcall (.closing begun r) (Nat.le_refl _) [] (List.append_nil _).symm
        k.stopped .inl (k.nested ++ [r])
      rwa [List.append_nil] at hset
  | resume i reply =>
    simp only [KernelRuntime.step]
    cases hcall : k.calls[i]? with
    | none =>
      unfold resume
      rwa [hcall]
    | some call =>
      rcases resume_cases heap closeables backgroundTasks k hcall reply with
        ⟨call', hresume, hbegun, _⟩ | ⟨_, ⟨r, hr, hresume⟩ | ⟨hlength, hresume⟩⟩
      · rw [hresume]
        have hset := h.setCall hcall call' (Nat.le_of_eq hbegun.symm) [] (by rw [hbegun, List.append_nil])
          k.stopped .inl k.nested
        rwa [List.append_nil] at hset
      · rw [hresume]
        refine h.setCall hcall (.closing (call.begun + 1) r) (Nat.le_succ _) [r] ?_ k.stopped .inl k.nested
        exact List.take_add_one.trans (congrArg (closeables.take call.begun ++ ·) (congrArg Option.toList hr))
      · rw [hresume]
        have hset := h.setCall hcall (.ended call.begun) (Nat.le_refl _) [] (List.append_nil _).symm true
          (fun _ => .inr hlength) k.nested
        rwa [List.append_nil] at hset

theorem sound_started : Sound closeables {} := ⟨fun _ => rfl, nofun⟩

/-- Only what is to be closed is closed. -/
theorem Sound.mem_closeables (h : Sound closeables k) {r : Fin n} (hr : r ∈ k.closed) : r ∈ closeables := by
  rw [← List.count_pos_iff, h.count, List.count_pos_iff, List.mem_flatMap] at hr
  obtain ⟨_, _, hr⟩ := hr
  exact List.mem_of_mem_take hr

theorem Sound.mem_closed (h : Sound closeables k) (hstopped : k.stopped = true) {r : Fin n}
    (hr : r ∈ closeables) : r ∈ k.closed := by
  obtain ⟨call, hcall, hlength⟩ := h.stopped hstopped
  rw [← List.count_pos_iff, h.count, List.count_pos_iff, List.mem_flatMap]
  exact ⟨call, hcall, (List.take_of_length_le hlength).symm ▸ hr⟩

/-! ### One stop after the other -/

/-- A stop begins when no other is under way, and none is cancelled while it closes. -/
def Orderly (k : KernelRuntime n) : Move → Prop
  | .stop => k.stopped = true ∨ ∀ call ∈ k.calls, call.hasEnded = true
  | .delegate _ => True
  | .resume i reply =>
    reply = .cancelled → ∀ call, k.calls[i]? = some call → call.hasEnded = true ∨ call.begun = 0

instance (k : KernelRuntime n) : (move : Move) → Decidable (Orderly k move)
  | .stop => inferInstanceAs (Decidable (_ ∨ _))
  | .delegate _ => inferInstanceAs (Decidable True)
  | .resume _ _ => inferInstanceAs (Decidable (_ → ∀ _, _ → _))

/-- Of the calls only the last has closed anything, in order, and it ended only when it had closed
everything. -/
structure Single (closeables : List (Fin n)) (k : KernelRuntime n) (past : List (StopCall n))
    (current : StopCall n) : Prop where
  calls : k.calls = past ++ [current]
  past : ∀ call ∈ past, call = .ended 0
  closed : k.closed = closeables.take current.begun
  ended : current.hasEnded = true → 0 < current.begun → k.stopped = true
  stopped : k.stopped = true → closeables.length ≤ current.begun
  finished : k.stopped = true → current.hasEnded = true

/-- Only the last call is under way. -/
theorem Single.last {past : List (StopCall n)} {current call : StopCall n}
    (h : Single closeables k past current) {i : Nat} (hcall : k.calls[i]? = some call)
    (hrunning : ¬ call.hasEnded = true) : i = past.length ∧ current = call := by
  rw [h.calls] at hcall
  by_cases hlast : i = past.length
  · subst hlast
    exact ⟨rfl, Option.some.inj (List.getElem?_concat_length.symm.trans hcall)⟩
  · have hi := (List.getElem?_eq_some_iff.mp hcall).1
    rw [List.length_append, List.length_singleton] at hi
    rw [List.getElem?_append_left (by omega)] at hcall
    have hended := h.past call (List.mem_of_getElem? hcall)
    exact absurd (congrArg StopCall.hasEnded hended) hrunning

theorem Single.set_last {past : List (StopCall n)} {current : StopCall n}
    (h : Single closeables k past current) (call : StopCall n) :
    k.calls.set past.length call = past ++ [call] := by
  rw [h.calls, List.set_append_right past.length call (Nat.le_refl _), Nat.sub_self]
  rfl

/-- No call was made yet, or a last one. -/
def Sequential (closeables : List (Fin n)) (k : KernelRuntime n) : Prop :=
  k = {} ∨ ∃ past current, Single closeables k past current

theorem Sequential.step (h : Sequential closeables k) (move : Move) (horderly : Orderly k move) :
    Sequential closeables (step heap closeables backgroundTasks k move) := by
  rcases h with rfl | ⟨past, current, h⟩
  · cases move with
    | stop => exact .inr ⟨[], .draining, rfl, nofun, rfl, nofun, nofun, nofun⟩
    | delegate i => exact .inl rfl
    | resume i reply => exact .inl rfl
  cases move with
  | stop =>
    simp only [KernelRuntime.step]
    split
    · exact .inr ⟨past, current, h⟩
    · rename_i hrunning
      have hended : current.hasEnded = true := by
        rcases horderly with hstopped | hended
        · exact absurd hstopped hrunning
        · exact hended current (h.calls ▸ List.mem_append_right past List.mem_cons_self)
      have hzero : current = .ended 0 := by
        cases current with
        | ended begun =>
          cases begun with
          | zero => rfl
          | succ begun => exact absurd (h.ended rfl (Nat.succ_pos begun)) hrunning
        | _ => cases hended
      subst hzero
      refine .inr ⟨past ++ [.ended 0], .draining, ?_, ?_, h.closed, nofun, ?_, ?_⟩
      · exact congrArg (· ++ [StopCall.draining]) h.calls
      · intro call hcall
        rcases List.mem_append.mp hcall with hcall | hcall
        · exact h.past call hcall
        · exact List.mem_singleton.mp hcall
      · exact fun hstopped => absurd hstopped hrunning
      · exact fun hstopped => absurd hstopped hrunning
  | delegate i =>
    simp only [KernelRuntime.step]
    rcases delegate_cases heap k i with hsame | ⟨begun, running, r, hcall, _, hdelegate⟩
    · rw [hsame]
      exact .inr ⟨past, current, h⟩
    · rw [hdelegate]
      obtain ⟨rfl, rfl⟩ := h.last hcall Bool.false_ne_true
      exact .inr ⟨past, .closing begun r, h.set_last _, h.past, h.closed, nofun, h.stopped, h.finished⟩
  | resume i reply =>
    simp only [KernelRuntime.step]
    cases hcall : k.calls[i]? with
    | none =>
      unfold resume
      rw [hcall]
      exact .inr ⟨past, current, h⟩
    | some call =>
      by_cases hended : call.hasEnded = true
      · have hsame : resume heap closeables backgroundTasks k i reply = k := by
          unfold resume
          rw [hcall]
          cases call with
          | ended begun => rfl
          | _ => cases hended
        rw [hsame]
        exact .inr ⟨past, current, h⟩
      · obtain ⟨rfl, rfl⟩ := h.last hcall hended
        have hrunning : ∀ {p : Prop}, k.stopped = true → p := fun hstopped => absurd (h.finished hstopped) hended
        rcases resume_cases heap closeables backgroundTasks k hcall reply with
          ⟨call', hresume, hbegun, _, hends⟩ | ⟨_, ⟨r, hr, hresume⟩ | ⟨hlength, hresume⟩⟩
        · rw [hresume]
          refine .inr ⟨past, call', h.set_last call', h.past, hbegun ▸ h.closed, ?_, hrunning, hrunning⟩
          intro hdone hpos
          rw [hbegun] at hpos
          rcases hends hdone hpos with hold | hcancelled
          · exact absurd hold hended
          · rcases horderly hcancelled current hcall with hold | hzero
            · exact absurd hold hended
            · exact absurd hzero (Nat.ne_of_gt hpos)
        · rw [hresume]
          refine .inr ⟨past, .closing (current.begun + 1) r, h.set_last _, h.past, ?_, nofun, hrunning, hrunning⟩
          exact (congrArg (· ++ [r]) h.closed).trans
            (List.take_add_one.trans
              (congrArg (closeables.take current.begun ++ ·) (congrArg Option.toList hr))).symm
        · rw [hresume]
          exact .inr ⟨past, .ended current.begun, h.set_last _, h.past, h.closed, fun _ _ => rfl,
            fun _ => hlength, fun _ => rfl⟩

/-! ### What is closed in turn -/

/-- What is closed in turn is wrapped by something that was closed. -/
structure Nested (heap : Heap n) (k : KernelRuntime n) : Prop where
  running : ∀ call ∈ k.calls, ∀ r, call.running? = some r → r ∈ k.closed ++ k.nested
  caused : ∀ r ∈ k.nested, ∃ log ∈ k.closed ++ k.nested, delegated heap log = some r

/-- No `close` raises, and none is cancelled. -/
def Unfailing (k : KernelRuntime n) : Move → Prop
  | .stop | .delegate _ => True
  | .resume i reply => ∀ call, k.calls[i]? = some call → call.running? ≠ none → reply = .ok

/-- What was closed has closed what it wraps, unless it has still to return. -/
def Passed (heap : Heap n) (k : KernelRuntime n) : Prop :=
  ∀ log ∈ k.closed ++ k.nested, (∃ call ∈ k.calls, call.running? = some log) ∨
    ∀ r, delegated heap log = some r → r ∈ k.nested

theorem mem_set_calls {calls : List (StopCall n)} {i : Nat} {call' c : StopCall n}
    (h : c ∈ calls.set i call') : c = call' ∨ c ∈ calls :=
  (List.mem_or_eq_of_mem_set h).symm

theorem Nested.step (h : Nested heap k) (move : Move) :
    Nested heap (step heap closeables backgroundTasks k move) := by
  cases move with
  | stop =>
    simp only [KernelRuntime.step]
    split
    · exact h
    · refine ⟨fun call hcall r hr => ?_, h.caused⟩
      rcases List.mem_append.mp hcall with hcall | hcall
      · exact h.running call hcall r hr
      · rw [List.mem_singleton.mp hcall] at hr
        cases hr
  | delegate i =>
    simp only [KernelRuntime.step]
    rcases delegate_cases heap k i with hsame | ⟨begun, running, r, hcall, hr, hdelegate⟩
    · rwa [hsame]
    · have hrunning := h.running _ (List.mem_of_getElem? hcall) running rfl
      have hmore : ∀ {a}, a ∈ k.closed ++ k.nested → a ∈ k.closed ++ (k.nested ++ [r]) := by
        intro a ha
        rw [← List.append_assoc]
        exact List.mem_append_left _ ha
      rw [hdelegate]
      refine ⟨fun call hcall r' hr' => ?_, fun r' hr' => ?_⟩
      · rcases mem_set_calls hcall with rfl | hold
        · obtain rfl := Option.some.inj hr'
          exact List.mem_append_right _ (List.mem_append_right _ (List.mem_singleton.mpr rfl))
        · exact hmore (h.running call hold r' hr')
      · rcases List.mem_append.mp hr' with hold | hnew
        · obtain ⟨log, hlog, hdelegated⟩ := h.caused r' hold
          exact ⟨log, hmore hlog, hdelegated⟩
        · exact ⟨running, hmore hrunning, List.mem_singleton.mp hnew ▸ hr⟩
  | resume i reply =>
    simp only [KernelRuntime.step]
    cases hcall : k.calls[i]? with
    | none =>
      unfold resume
      rwa [hcall]
    | some call =>
      rcases resume_cases heap closeables backgroundTasks k hcall reply with
        ⟨call', hresume, _, hcall', _⟩ | ⟨_, ⟨r, _, hresume⟩ | ⟨_, hresume⟩⟩
      · rw [hresume]
        refine ⟨fun c hc r hr => ?_, h.caused⟩
        rcases mem_set_calls hc with rfl | hold
        · rcases hcall' with rfl | ⟨hnone, _⟩
          · exact h.running _ (List.mem_of_getElem? hcall) r hr
          · rw [hnone] at hr
            cases hr
        · exact h.running c hold r hr
      · have hmore : ∀ {a}, a ∈ k.closed ++ k.nested → a ∈ (k.closed ++ [r]) ++ k.nested := by
          intro a ha
          rcases List.mem_append.mp ha with ha | ha
          · exact List.mem_append_left _ (List.mem_append_left _ ha)
          · exact List.mem_append_right _ ha
        rw [hresume]
        refine ⟨fun c hc r' hr' => ?_, fun r' hr' => ?_⟩
        · rcases mem_set_calls hc with rfl | hold
          · obtain rfl := Option.some.inj hr'
            exact List.mem_append_left _ (List.mem_append_right _ (List.mem_singleton.mpr rfl))
          · exact hmore (h.running c hold r' hr')
        · obtain ⟨log, hlog, hdelegated⟩ := h.caused r' hr'
          exact ⟨log, hmore hlog, hdelegated⟩
      · rw [hresume]
        refine ⟨fun c hc r hr => ?_, h.caused⟩
        rcases mem_set_calls hc with rfl | hold
        · cases hr
        · exact h.running c hold r hr

/-- A call goes on to what runs now; what ran before had passed its `close` on. -/
theorem Passed.setCall (h : Passed heap k) {i : Nat} {call : StopCall n} (hcall : k.calls[i]? = some call)
    (call' : StopCall n) (closed nested : List (Fin n)) (stopped : Bool)
    (hold : ∀ log, call.running? = some log →
      call'.running? = some log ∨ ∀ r, delegated heap log = some r → r ∈ k.nested ++ nested)
    (hnew : ∀ log ∈ closed ++ nested, call'.running? = some log) :
    Passed heap { stopped := stopped, calls := k.calls.set i call', closed := k.closed ++ closed,
                  nested := k.nested ++ nested } := by
  have hcall' : call' ∈ k.calls.set i call' := List.mem_set (List.getElem?_eq_some_iff.mp hcall).1 call'
  intro log hlog
  have hlog : log ∈ k.closed ++ k.nested ∨ log ∈ closed ++ nested := by
    simp only [List.mem_append] at hlog ⊢
    tauto
  rcases hlog with hlog | hlog
  · rcases h log hlog with ⟨c, hc, hrunning⟩ | hpassed
    · obtain ⟨j, hj, rfl⟩ := List.getElem_of_mem hc
      by_cases hij : i = j
      · subst hij
        have heq : call = k.calls[i] := Option.some.inj (hcall.symm.trans (List.getElem?_eq_getElem hj))
        rcases hold log (heq ▸ hrunning) with hstill | hpassed
        · exact .inl ⟨call', hcall', hstill⟩
        · exact .inr hpassed
      · refine .inl ⟨k.calls[j], ?_, hrunning⟩
        show k.calls[j] ∈ k.calls.set i call'
        rw [← List.getElem_set_of_ne hij call' (by simpa using hj)]
        exact List.getElem_mem _
    · exact .inr (fun r hr => List.mem_append_left _ (hpassed r hr))
  · exact .inl ⟨call', hcall', hnew log hlog⟩

theorem Passed.step (h : Passed heap k) (move : Move) (hunfailing : Unfailing k move) :
    Passed heap (step heap closeables backgroundTasks k move) := by
  cases move with
  | stop =>
    simp only [KernelRuntime.step]
    split
    · exact h
    · intro log hlog
      exact (h log hlog).imp_left (fun ⟨c, hc, hrunning⟩ => ⟨c, List.mem_append_left _ hc, hrunning⟩)
  | delegate i =>
    simp only [KernelRuntime.step]
    rcases delegate_cases heap k i with hsame | ⟨begun, running, r, hcall, hr, hdelegate⟩
    · rwa [hsame]
    · rw [hdelegate]
      have hset := h.setCall hcall (.closing begun r) [] [r] k.stopped (fun log hlog => .inr (fun r' hr' => ?_))
        (fun log hlog => congrArg some (List.mem_singleton.mp hlog).symm)
      · rwa [List.append_nil] at hset
      · obtain rfl := Option.some.inj hlog
        rw [hr] at hr'
        exact List.mem_append_right _ (List.mem_singleton.mpr (Option.some.inj hr').symm)
  | resume i reply =>
    simp only [KernelRuntime.step]
    cases hcall : k.calls[i]? with
    | none =>
      unfold resume
      rwa [hcall]
    | some call =>
      have hok : call.running? ≠ none → reply = .ok := hunfailing call hcall
      have hdone : (reply = .ok → ∀ running, call.running? = some running → delegated heap running = none) →
          ∀ {nested : List (Fin n)} log, call.running? = some log →
            ∀ r, delegated heap log = some r → r ∈ k.nested ++ nested := by
        intro hnone _ log hlog r hr
        have hne : call.running? ≠ none := by
          rw [hlog]
          exact Option.some_ne_none log
        rw [hnone (hok hne) log hlog] at hr
        cases hr
      rcases resume_cases heap closeables backgroundTasks k hcall reply with
        ⟨call', hresume, _, hcall', _⟩ | ⟨hnone, ⟨r, _, hresume⟩ | ⟨_, hresume⟩⟩
      · rw [hresume]
        have hset := h.setCall hcall call' [] [] k.stopped (fun log hlog => ?_)
          (fun log hlog => absurd hlog List.not_mem_nil)
        · rwa [List.append_nil, List.append_nil] at hset
        · rcases hcall' with rfl | ⟨_, hidle⟩
          · exact .inl hlog
          · have hne : call.running? ≠ none := by
              rw [hlog]
              exact Option.some_ne_none log
            exact absurd (hidle (hok hne)) hne
      · rw [hresume]
        have hset := h.setCall hcall (.closing (call.begun + 1) r) [r] [] k.stopped
          (fun log hlog => .inr (hdone hnone log hlog))
          (fun log hlog => congrArg some (List.mem_singleton.mp hlog).symm)
        rwa [List.append_nil] at hset
      · rw [hresume]
        have hset := h.setCall hcall (.ended call.begun) [] [] true
          (fun log hlog => .inr (hdone hnone log hlog)) (fun log hlog => absurd hlog List.not_mem_nil)
        rwa [List.append_nil, List.append_nil] at hset

end

end KernelRuntime

/-! ### The runtime -/

section
variable {n : Nat} (heap : Heap n) (eventLog : Fin n) (dedupeStore : Option (Fin n)) (backgroundTasks : Nat)

/-- The runtime after the moves. -/
def after (moves : List Move) : KernelRuntime n :=
  run (KernelRuntime.step heap (collectCloseables heap eventLog dedupeStore) backgroundTasks) {} moves

theorem sound_after (moves : List Move) :
    (after heap eventLog dedupeStore backgroundTasks moves).Sound
      (collectCloseables heap eventLog dedupeStore) :=
  run_invariant (fun _ move h => h.step move) KernelRuntime.sound_started moves

/-- **A stopped runtime has closed all it owns.** In every interleaving of stops, whatever raises
and whichever of them is cancelled, they close only what belongs to the runtime, and all of it once
the runtime counts as stopped. -/
theorem stopped_closed (moves : List Move) :
    (∀ r ∈ (after heap eventLog dedupeStore backgroundTasks moves).closed,
      (heap r).hasClose = true ∧ Owned heap eventLog dedupeStore r) ∧
    ((after heap eventLog dedupeStore backgroundTasks moves).stopped = true →
      ∀ r, (heap r).hasClose = true → Owned heap eventLog dedupeStore r →
        r ∈ (after heap eventLog dedupeStore backgroundTasks moves).closed) := by
  have hsound := sound_after heap eventLog dedupeStore backgroundTasks moves
  constructor
  · intro r hr
    exact (mem_collectCloseables heap eventLog dedupeStore r).mp (hsound.mem_closeables hr)
  · intro hstopped r hclose howned
    exact hsound.mem_closed hstopped ((mem_collectCloseables heap eventLog dedupeStore r).mpr ⟨hclose, howned⟩)

/-- **One stop after the other closes everything once**, the logs first and each before the one it
wraps, unless a stop is cancelled while it closes. What is closed beyond that is what a closed log
wraps and closes in turn, and all of that if no `close` raises. -/
theorem closed_once (moves : List Move)
    (h : Along (KernelRuntime.step heap (collectCloseables heap eventLog dedupeStore) backgroundTasks)
      KernelRuntime.Orderly {} moves) :
    let k := after heap eventLog dedupeStore backgroundTasks moves
    k.closed.Nodup ∧ (∀ r ∈ k.nested, ∃ log ∈ k.closed ++ k.nested, delegated heap log = some r) ∧
    (k.stopped = true →
      (∀ r, r ∈ k.closed ↔ (heap r).hasClose = true ∧ Owned heap eventLog dedupeStore r) ∧
      (logChain heap eventLog).filter (fun r => (heap r).hasClose) <+: k.closed ∧
      (logChain heap eventLog).IsChain (fun a b => (heap a).inner = some b) ∧
      (Along (KernelRuntime.step heap (collectCloseables heap eventLog dedupeStore) backgroundTasks)
          KernelRuntime.Unfailing {} moves →
        ∀ log ∈ k.closed, ∀ r, delegated heap log = some r → r ∈ k.nested)) := by
  intro k
  have hnodup := nodup_collectCloseables heap eventLog dedupeStore
  have hsequential : KernelRuntime.Sequential (collectCloseables heap eventLog dedupeStore) k :=
    run_invariant_along (fun _ move horderly h => h.step move horderly) (.inl rfl) moves h
  have hnested : KernelRuntime.Nested heap k :=
    run_invariant (I := KernelRuntime.Nested heap) (fun _ move h => h.step move)
      ⟨fun _ h => absurd h List.not_mem_nil, fun _ h => absurd h List.not_mem_nil⟩ moves
  rcases hsequential with hnone | ⟨past, current, hsingle⟩
  · refine ⟨?_, hnested.caused, fun hstopped => ?_⟩
    · rw [hnone]
      exact List.nodup_nil
    · rw [hnone] at hstopped
      cases hstopped
  · refine ⟨?_, hnested.caused, fun hstopped => ?_⟩
    · rw [hsingle.closed]
      exact hnodup.sublist (List.take_sublist _ _)
    · have hclosed : k.closed = collectCloseables heap eventLog dedupeStore := by
        rw [hsingle.closed, List.take_of_length_le (hsingle.stopped hstopped)]
      obtain ⟨hlogs, hchain⟩ := collectCloseables_order heap eventLog dedupeStore
      refine ⟨fun r => ?_, hclosed ▸ hlogs, hchain, fun hunfailing log hlog r hr => ?_⟩
      · rw [hclosed]
        exact mem_collectCloseables heap eventLog dedupeStore r
      · have hpassed : KernelRuntime.Passed heap k :=
          run_invariant_along (fun _ move hmove h => h.step move hmove)
            (fun _ h => absurd h List.not_mem_nil) moves hunfailing
        -- No call has still to return.
        rcases hpassed log (List.mem_append_left _ hlog) with ⟨call, hcall, hrunning⟩ | hdone
        · rw [hsingle.calls, List.mem_append, List.mem_singleton] at hcall
          have hended : call.hasEnded = true := by
            rcases hcall with hpast | rfl
            · rw [hsingle.past call hpast]
              rfl
            · exact hsingle.finished hstopped
          cases call with
          | ended begun => cases hrunning
          | _ => cases hended
        · exact hdone r hr

end

namespace Sample

/-- An exporting log, the log it wraps, which wraps it in turn, the bundle of that, and a store. -/
def heap : Heap 4 := fun r =>
  [{ inner := some 1, closesInner := true }, { inner := some 0, kernelColocatedBundle := some 2 }, {}, {}].get r

/-- A stop is cancelled before it closes anything, and the next one closes everything. -/
def moves : List Move :=
  [.stop, .resume 0 .cancelled, .stop, .resume 1 .ok, .resume 1 .ok, .delegate 1, .resume 1 .raised,
    .resume 1 .ok, .resume 1 .raised, .resume 1 .ok]

end Sample

theorem closed_once_circular :
    let k := after Sample.heap 0 (some 3) 0 Sample.moves
    k.closed.Nodup ∧ (∀ r ∈ k.nested, ∃ log ∈ k.closed ++ k.nested, delegated Sample.heap log = some r) ∧
    (k.stopped = true → ∀ r, r ∈ k.closed ↔ (Sample.heap r).hasClose = true ∧ Owned Sample.heap 0 (some 3) r) := by
  obtain ⟨hnodup, hnested, hstopped⟩ := closed_once Sample.heap 0 (some 3) 0 Sample.moves (by decide)
  exact ⟨hnodup, hnested, fun h => (hstopped h).1⟩

/-- It counts as stopped, and the four were closed in order, the wrapped log once more by the one
that wraps it. -/
example : (after Sample.heap 0 (some 3) 0 Sample.moves).stopped = true ∧
    (after Sample.heap 0 (some 3) 0 Sample.moves).closed = [0, 1, 2, 3] ∧
    (after Sample.heap 0 (some 3) 0 Sample.moves).nested = [1] := by decide

/-- Two stops that overlap close everything twice. -/
example : (after Sample.heap 0 (some 3) 0
    ([.stop, .stop] ++
      (List.replicate 6 [.delegate 0, .resume 0 .ok, .delegate 1, .resume 1 .ok]).flatten)).closed =
      [0, 0, 1, 1, 2, 2, 3, 3] := by decide

end AgentKernel.Runtime.Shutdown
