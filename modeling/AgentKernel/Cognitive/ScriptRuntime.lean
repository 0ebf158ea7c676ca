import AgentKernel.Dedupe.Healthy
import AgentKernel.Lib.Run

/-! Scripts that run at most once.

`execute_script` reserves a slot of the dedupe store under a key that joins the run, the
action and the script with colons, and hands the script to the inner runtime only if the slot
was free. A slot that is found reserved is answered with a result that says success and
nothing else, whatever became of the script. So the inner runtime is invoked at most once for
a script of an action of a run, and a success that is reported is the inner runtime's own or
the answer of a reserved slot (`scripts_deduplicated`). -/
namespace AgentKernel.Cognitive
open Lib Dedupe

structure ScriptActivityInput where
  runId : String
  actionId : String
  scriptId : String
  scriptContent : String
  hostKind : HostKind
  parameters : Payload := []
  timeoutMs : Int := 30000
  heartbeatIntervalMs : Int := 5000

structure ScriptResult where
  scriptId : String
  exitCode : Int
  stdout : String := ""
  stderr : String := ""
  outputJson : Option Payload := none
  executionMs : Int := 0

/-- What a script is deduplicated by. -/
structure ScriptIds where
  runId : String
  actionId : String
  scriptId : String
  deriving DecidableEq, Repr

def ScriptActivityInput.ids (input : ScriptActivityInput) : ScriptIds :=
  ⟨input.runId, input.actionId, input.scriptId⟩

def ScriptIds.key (ids : ScriptIds) : String :=
  "script:" ++ ids.runId ++ ":" ++ ids.actionId ++ ":" ++ ids.scriptId

def scriptKey (input : ScriptActivityInput) : String := input.ids.key

def scriptEnvelope (input : ScriptActivityInput) : IdempotencyEnvelope where
  dispatchIdempotencyKey := scriptKey input
  operationFingerprint := scriptKey input
  attemptSeq := 1
  effectScope := "script:" ++ input.scriptId
  capabilitySnapshotHash := "script_runtime"
  hostKind := input.hostKind

/-- The answer of a reserved slot. -/
def noopResult (input : ScriptActivityInput) : ScriptResult where
  scriptId := input.scriptId
  exitCode := 0

/-! ### One call -/

/-- How the inner runtime ends. A cancellation is no `Exception`. -/
inductive InnerEnd where
  | returned (result : ScriptResult)
  | raised (e : PyError)
  | cancelled

inductive Progress where
  | awaiting
  | returned (result : ScriptResult)
  | raised (e : PyError)

section
variable {σ : Type} (S : DedupeStorePort σ)

/-- The call up to its await, if it gets there. -/
def beginScript (input : ScriptActivityInput) : Call PyError σ Progress := do
  let reservation ← S.reserve (scriptEnvelope input)
  if ¬ reservation.accepted then pure (.returned (noopResult input))
  else do
    S.markDispatched (scriptKey input) none
    pure .awaiting

/-- The call from its await on. -/
def endScript (input : ScriptActivityInput) : InnerEnd → Call PyError σ Progress
  | .returned result => do
    S.markAcknowledged (scriptKey input) none
    pure (.returned result)
  | .raised e => do
    Call.suppress (S.markUnknownEffect (scriptKey input))
    pure (.raised e)
  | .cancelled => pure (.raised cancelledError)

end

/-! ### Calls that share a store -/

structure ScriptCall where
  input : ScriptActivityInput
  progress : Progress

structure Scripts (σ : Type) where
  store : σ
  calls : Dict Nat ScriptCall := .empty
  /-- Every invocation of the inner runtime: the call that made it, and for what. -/
  invoked : List (Nat × ScriptIds) := []
  /-- What the inner runtime completed, and with which exit code. -/
  completed : List (ScriptIds × Int) := []

inductive ScriptStep where
  /-- A new call, named `i`. -/
  | execute (i : Nat) (input : ScriptActivityInput)
  /-- The inner runtime that call `i` awaits ends. -/
  | innerEnds (i : Nat) (how : InnerEnd)

namespace Scripts
variable {σ : Type} (S : DedupeStorePort σ)

/-- Call `i` is where `x` says. -/
def put (w : Scripts σ) (i : Nat) (store : σ) (x : ScriptCall) : Scripts σ :=
  { w with store := store, calls := w.calls.set i x }

def execute (w : Scripts σ) (i : Nat) (input : ScriptActivityInput) : Scripts σ :=
  match beginScript S input w.store with
  | .ok .awaiting store =>
    { w.put i store ⟨input, .awaiting⟩ with invoked := w.invoked ++ [(i, input.ids)] }
  | .ok progress store => w.put i store ⟨input, progress⟩
  | .error e store => w.put i store ⟨input, .raised e⟩

/-- What the end of the inner runtime adds to the completed scripts. -/
def completedBy (input : ScriptActivityInput) : InnerEnd → List (ScriptIds × Int)
  | .returned result => [(input.ids, result.exitCode)]
  | _ => []

def innerEnds (w : Scripts σ) (i : Nat) (input : ScriptActivityInput) (how : InnerEnd) : Scripts σ :=
  let w := { w with completed := w.completed ++ completedBy input how }
  match endScript S input how w.store with
  | .ok progress store => w.put i store ⟨input, progress⟩
  | .error e store => w.put i store ⟨input, .raised e⟩

def next (w : Scripts σ) : ScriptStep → Scripts σ
  | .execute i input =>
    match w.calls.get? i with
    | some _ => w
    | none => w.execute S i input
  | .innerEnds i how =>
    match w.calls.get? i with
    | some ⟨input, .awaiting⟩ => w.innerEnds S i input how
    | _ => w

/-- How often the inner runtime was invoked for a script. -/
def invocations (w : Scripts σ) (ids : ScriptIds) : Nat := (w.invoked.map Prod.snd).count ids

end Scripts

/-! ### Keys -/

/-- Ids without colons are told apart by their keys. -/
theorem key_inj {a b : ScriptIds} (ha : ':' ∉ a.actionId.toList ∧ ':' ∉ a.scriptId.toList)
    (hb : ':' ∉ b.actionId.toList ∧ ':' ∉ b.scriptId.toList) (h : a.key = b.key) : a = b := by
  have hkeys : ("script:" ++ a.runId ++ ":" ++ a.actionId).toList ++ ':' :: a.scriptId.toList =
      ("script:" ++ b.runId ++ ":" ++ b.actionId).toList ++ ':' :: b.scriptId.toList := by
    simpa [ScriptIds.key, String.toList_append] using congrArg String.toList h
  obtain ⟨hfront, hscript⟩ := Text.append_separator_inj ha.2 hb.2 hkeys
  have hfronts : ("script:" ++ a.runId).toList ++ ':' :: a.actionId.toList =
      ("script:" ++ b.runId).toList ++ ':' :: b.actionId.toList := by
    simpa [String.toList_append] using hfront
  obtain ⟨hrun, haction⟩ := Text.append_separator_inj ha.1 hb.1 hfronts
  have hruns : a.runId = b.runId := (String.append_right_inj "script:").mp (String.toList_inj.mp hrun)
  obtain ⟨ra, aa, sa⟩ := a
  obtain ⟨rb, ab, sb⟩ := b
  obtain rfl : ra = rb := hruns
  obtain rfl : aa = ab := String.toList_inj.mp haction
  obtain rfl : sa = sb := String.toList_inj.mp hscript
  rfl

/-! ### One call on a healthy store -/

section
variable {S : HealthyStore} {s : S.State} {input : ScriptActivityInput} {r : DedupeRecord}

/-- A free slot is taken. -/
theorem beginScript_free (h : S.view s (scriptKey input) = none) :
    ∃ s' r, beginScript S.port input s = .ok .awaiting s' ∧ r.state = .dispatched ∧
      S.view s' = (S.view s).put (scriptKey input) r := by
  obtain ⟨s₁, s₂, r, hreserve, hmark, hstate, hview⟩ := HealthyStore.reserve_markDispatched_eval
    (show S.view s (scriptEnvelope input).dispatchIdempotencyKey = none from h)
  refine ⟨s₂, r, ?_, hstate, hview⟩
  rw [beginScript, Call.bind_apply, hreserve]
  show (S.port.markDispatched (scriptKey input) none >>= fun _ => pure Progress.awaiting) s₁ = _
  rw [Call.bind_apply, show S.port.markDispatched (scriptKey input) none s₁ = .ok () s₂ from hmark]
  rfl

/-- A reserved slot answers at once. -/
theorem beginScript_reserved (h : S.view s (scriptKey input) = some r) :
    ∃ s', beginScript S.port input s = .ok (.returned (noopResult input)) s' ∧ S.view s' = S.view s := by
  obtain ⟨s', hreserve, hview⟩ := HealthyStore.reserve_present
    (show S.view s (scriptEnvelope input).dispatchIdempotencyKey = some r from h)
  refine ⟨s', ?_, hview⟩
  rw [beginScript, Call.bind_apply, hreserve]
  rfl

/-- The progress a call ends with. -/
def InnerEnd.progress : InnerEnd → Progress
  | .returned result => .returned result
  | .raised e => .raised e
  | .cancelled => .raised cancelledError

/-- **The call ends as the inner runtime does**, and only its own record moves. -/
theorem endScript_dispatched (hr : S.view s (scriptKey input) = some r) (hstate : r.state = .dispatched)
    (how : InnerEnd) :
    ∃ s' r', endScript S.port input how s = .ok how.progress s' ∧
      S.view s' = (S.view s).put (scriptKey input) r' := by
  cases how with
  | returned result =>
    obtain ⟨s', hmark, hview⟩ := HealthyStore.markAcknowledged_eval hr hstate
    refine ⟨s', _, ?_, hview⟩
    rw [endScript, Call.bind_apply, hmark]
    rfl
  | raised e =>
    obtain ⟨s', hmark, hview⟩ := HealthyStore.markUnknownEffect_eval hr hstate
    refine ⟨s', _, ?_, hview⟩
    rw [endScript, Call.bind_apply, Call.suppress, Call.tryCatch_apply, hmark]
    rfl
  | cancelled =>
    refine ⟨s, r, rfl, ?_⟩
    rw [Ledger.put, ← hr]
    exact (Function.update_eq_self _ _).symm

end

/-! ### Calls that overlap -/

namespace Scripts

/-- A script that some call returned for was invoked once, and a success that is reported is
that of the script. -/
structure Truthful {σ : Type} (w : Scripts σ) : Prop where
  once : ∀ ids, w.invocations ids ≤ 1
  invoked : ∀ i input result, w.calls.get? i = some ⟨input, .returned result⟩ →
    w.invocations input.ids = 1
  success : ∀ i input result, w.calls.get? i = some ⟨input, .returned result⟩ → result.exitCode = 0 →
    (input.ids, 0) ∈ w.completed

/-- No two scripts that were asked for have the same key. -/
def Unshared {σ : Type} (w : Scripts σ) : Prop :=
  ∀ i j x y, w.calls.get? i = some x → w.calls.get? j = some y →
    scriptKey x.input = scriptKey y.input → x.input.ids = y.input.ids

theorem unshared_of_plain {σ : Type} {w : Scripts σ}
    (plain : ∀ i x, w.calls.get? i = some x →
      ':' ∉ x.input.actionId.toList ∧ ':' ∉ x.input.scriptId.toList) : w.Unshared :=
  fun i j x y hx hy hkey => key_inj (plain i x hx) (plain j y hy) hkey

/-- What is left of that when a reserved slot answers as it does. -/
structure Deduplicated {σ : Type} (w : Scripts σ) : Prop where
  once : ∀ ids, w.invocations ids ≤ 1
  invoked : w.Unshared → ∀ i input result, w.calls.get? i = some ⟨input, .returned result⟩ →
    w.invocations input.ids = 1
  /-- The script succeeded in this call, or an earlier call has reserved the slot of its key
  and invoked the inner runtime. -/
  success : ∀ i input result, w.calls.get? i = some ⟨input, .returned result⟩ → result.exitCode = 0 →
    (input.ids, 0) ∈ w.completed ∨
      result = noopResult input ∧ ∃ j y, j ≠ i ∧ w.calls.get? j = some y ∧
        scriptKey y.input = scriptKey input ∧ w.invocations y.input.ids = 1

variable {S : HealthyStore}

/-- How calls, records and invocations hang together. -/
structure Tracked (w : Scripts S.State) : Prop where
  invokes : ∀ i ids, (i, ids) ∈ w.invoked → ∃ x, w.calls.get? i = some x ∧ x.input.ids = ids
  present : ∀ i ids, (i, ids) ∈ w.invoked → S.view w.store ids.key ≠ none
  held : ∀ ids : ScriptIds, S.view w.store ids.key ≠ none → ∃ e ∈ w.invoked, e.2.key = ids.key
  once : (w.invoked.map (fun e => e.2.key)).Nodup
  awaiting : ∀ i input, w.calls.get? i = some ⟨input, .awaiting⟩ → (i, input.ids) ∈ w.invoked ∧
    ∃ r, S.view w.store (scriptKey input) = some r ∧ r.state = .dispatched
  returned : ∀ i input result, w.calls.get? i = some ⟨input, .returned result⟩ →
    ((i, input.ids) ∈ w.invoked ∧ (input.ids, result.exitCode) ∈ w.completed) ∨
      (result = noopResult input ∧ ∃ e ∈ w.invoked, e.1 ≠ i ∧ e.2.key = scriptKey input)

theorem Tracked.start {store : S.State} (fresh : ∀ ids : ScriptIds, S.view store ids.key = none) :
    Tracked (S := S) { store := store } where
  invokes := fun _ _ h => absurd h List.not_mem_nil
  present := fun _ _ h => absurd h List.not_mem_nil
  held := fun ids h => absurd (fresh ids) h
  once := List.nodup_nil
  awaiting := fun _ _ h => nomatch h
  returned := fun _ _ _ h => nomatch h

/-- No two invocations are for one key. -/
theorem Tracked.alone {w : Scripts S.State} (h : Tracked w) {i j : Nat} {a b : ScriptIds}
    (ha : (i, a) ∈ w.invoked) (hb : (j, b) ∈ w.invoked) (hkey : a.key = b.key) : i = j :=
  congrArg Prod.fst (List.inj_on_of_nodup_map h.once ha hb hkey)

/-- What a call that has not been made before was not invoked for. -/
theorem Tracked.not_invoked {w : Scripts S.State} (h : Tracked w) {i : Nat}
    (new : w.calls.get? i = none) {j : Nat} {ids : ScriptIds} (hj : (j, ids) ∈ w.invoked) : j ≠ i := by
  rintro rfl
  obtain ⟨x, hx, _⟩ := h.invokes j ids hj
  rw [new] at hx
  cases hx

theorem get?_put_of_ne (w : Scripts S.State) {i j : Nat} (hne : j ≠ i) (store : S.State) (x : ScriptCall) :
    (w.put i store x).calls.get? j = w.calls.get? j :=
  (Dict.get?_set ..).trans (if_neg hne)

/-- A call that takes its slot invokes the inner runtime. -/
theorem Tracked.execute_free {w : Scripts S.State} (h : Tracked w) {i : Nat}
    (new : w.calls.get? i = none) {input : ScriptActivityInput}
    (free : S.view w.store (scriptKey input) = none) : Tracked (w.execute S.port i input) := by
  obtain ⟨store, r, hbegin, hstate, hview⟩ := beginScript_free free
  have hexecute : w.execute S.port i input =
      { w.put i store ⟨input, .awaiting⟩ with invoked := w.invoked ++ [(i, input.ids)] } := by
    rw [execute, hbegin]
  rw [hexecute]
  have hold : ∀ j ids, (j, ids) ∈ w.invoked ++ [(i, input.ids)] →
      (j, ids) ∈ w.invoked ∨ j = i ∧ ids = input.ids := by
    intro j ids hj
    rcases List.mem_append.mp hj with hj | hj
    · exact .inl hj
    · exact .inr (Prod.mk.inj (List.mem_singleton.mp hj))
  have hown : S.view store (scriptKey input) = some r := by
    rw [hview, Ledger.put_apply, if_pos rfl]
  have hother : ∀ ids : ScriptIds, S.view w.store ids.key ≠ none → S.view store ids.key =
      S.view w.store ids.key := by
    intro ids hids
    have hne : ids.key ≠ scriptKey input := by
      intro heq
      exact hids (heq ▸ free)
    rw [hview, Ledger.put_apply, if_neg hne]
  constructor
  case invokes =>
    intro j ids hj
    rcases hold j ids hj with hj | ⟨rfl, rfl⟩
    · rw [get?_put_of_ne w (h.not_invoked new hj)]
      exact h.invokes j ids hj
    · exact ⟨⟨input, .awaiting⟩, (Dict.get?_set ..).trans (if_pos rfl), rfl⟩
  case present =>
    intro j ids hj
    rcases hold j ids hj with hj | ⟨rfl, rfl⟩
    · exact (hother ids (h.present j ids hj)).symm ▸ h.present j ids hj
    · exact hown ▸ Option.some_ne_none r
  case held =>
    intro ids hids
    by_cases hkey : ids.key = scriptKey input
    · exact ⟨(i, input.ids), List.mem_append_right _ (List.mem_singleton.mpr rfl), hkey.symm⟩
    · have hids' : S.view store ids.key ≠ none := hids
      rw [hview, Ledger.put_apply, if_neg hkey] at hids'
      obtain ⟨e, he, hkey⟩ := h.held ids hids'
      exact ⟨e, List.mem_append_left _ he, hkey⟩
  case once =>
    rw [List.map_append, List.nodup_append]
    refine ⟨h.once, List.nodup_singleton _, ?_⟩
    rintro _ hkey _ hnew rfl
    obtain ⟨⟨j, ids⟩, hj, heq⟩ := List.mem_map.mp hkey
    have hids : ids.key = scriptKey input := heq.trans (List.mem_singleton.mp hnew)
    exact h.present j ids hj (hids ▸ free)
  case awaiting =>
    intro j input' hj
    rcases Dict.get?_set_some hj with ⟨rfl, heq⟩ | ⟨_, hj⟩
    · cases heq
      exact ⟨List.mem_append_right _ (List.mem_singleton.mpr rfl), r, hown, hstate⟩
    · obtain ⟨hinvoked, r', hr', hstate'⟩ := h.awaiting j input' hj
      refine ⟨List.mem_append_left _ hinvoked, r', ?_, hstate'⟩
      exact (hother input'.ids (h.present j _ hinvoked)).trans hr'
  case returned =>
    intro j input' result hj
    rcases Dict.get?_set_some hj with ⟨_, heq⟩ | ⟨_, hj⟩
    · cases heq
    · rcases h.returned j input' result hj with ⟨hinvoked, hdone⟩ | ⟨hnoop, e, he, hother⟩
      · exact .inl ⟨List.mem_append_left _ hinvoked, hdone⟩
      · exact .inr ⟨hnoop, e, List.mem_append_left _ he, hother⟩

/-- A call that finds its slot reserved returns at once. -/
theorem Tracked.execute_reserved {w : Scripts S.State} (h : Tracked w) {i : Nat}
    (new : w.calls.get? i = none) {input : ScriptActivityInput} {r : DedupeRecord}
    (hr : S.view w.store (scriptKey input) = some r) : Tracked (w.execute S.port i input) := by
  obtain ⟨store, hbegin, hview⟩ := beginScript_reserved hr
  have hexecute : w.execute S.port i input = w.put i store ⟨input, .returned (noopResult input)⟩ := by
    rw [execute, hbegin]
  rw [hexecute]
  constructor
  case invokes =>
    intro j ids hj
    rw [get?_put_of_ne w (h.not_invoked new hj)]
    exact h.invokes j ids hj
  case present =>
    intro j ids hj
    exact (congrFun hview ids.key).symm ▸ h.present j ids hj
  case held =>
    intro ids hids
    exact h.held ids ((congrFun hview ids.key) ▸ hids)
  case once => exact h.once
  case awaiting =>
    intro j input' hj
    rcases Dict.get?_set_some hj with ⟨_, heq⟩ | ⟨_, hj⟩
    · cases heq
    · obtain ⟨hinvoked, r', hr', hstate'⟩ := h.awaiting j input' hj
      exact ⟨hinvoked, r', (congrFun hview _).trans hr', hstate'⟩
  case returned =>
    intro j input' result hj
    rcases Dict.get?_set_some hj with ⟨rfl, heq⟩ | ⟨_, hj⟩
    · cases heq
      obtain ⟨e, he, hkey⟩ := h.held input.ids (hr ▸ Option.some_ne_none r)
      exact .inr ⟨rfl, e, he, h.not_invoked new he, hkey⟩
    · exact h.returned j input' result hj

/-- The inner runtime of a waiting call ends. -/
theorem Tracked.innerEnds {w : Scripts S.State} (h : Tracked w) {i : Nat} {input : ScriptActivityInput}
    (hi : w.calls.get? i = some ⟨input, .awaiting⟩) (how : InnerEnd) :
    Tracked (w.innerEnds S.port i input how) := by
  obtain ⟨hinvoked, r, hr, hstate⟩ := h.awaiting i input hi
  obtain ⟨store, r', hend, hview⟩ := endScript_dispatched hr hstate how
  have hends : w.innerEnds S.port i input how =
      ({ w with completed := w.completed ++ completedBy input how } : Scripts S.State).put i store
        ⟨input, how.progress⟩ := by
    simp only [Scripts.innerEnds, hend]
  rw [hends]
  have hpresent : ∀ ids : ScriptIds, S.view store ids.key ≠ none ↔ S.view w.store ids.key ≠ none := by
    intro ids
    rw [hview, Ledger.put_apply]
    split
    · rename_i hkey
      rw [hkey, hr]
      simp
    · exact Iff.rfl
  constructor
  case invokes =>
    intro j ids hj
    obtain ⟨x, hx, hids⟩ := h.invokes j ids hj
    by_cases hji : j = i
    · subst hji
      rw [hi] at hx
      cases hx
      exact ⟨⟨input, how.progress⟩, (Dict.get?_set ..).trans (if_pos rfl), hids⟩
    · exact ⟨x, (Dict.get?_set ..).trans ((if_neg hji).trans hx), hids⟩
  case present => exact fun j ids hj => (hpresent ids).mpr (h.present j ids hj)
  case held => exact fun ids hids => h.held ids ((hpresent ids).mp hids)
  case once => exact h.once
  case awaiting =>
    intro j input' hj
    rcases Dict.get?_set_some hj with ⟨_, heq⟩ | ⟨hji, hj⟩
    · cases how <;> cases heq
    · obtain ⟨hinvoked', r'', hr'', hstate''⟩ := h.awaiting j input' hj
      have hne : scriptKey input' ≠ scriptKey input := fun heq => hji (h.alone hinvoked' hinvoked heq)
      have hsame : S.view store (scriptKey input') = S.view w.store (scriptKey input') := by
        rw [hview, Ledger.put_apply, if_neg hne]
      exact ⟨hinvoked', r'', hsame.trans hr'', hstate''⟩
  case returned =>
    intro j input' result hj
    rcases Dict.get?_set_some hj with ⟨rfl, heq⟩ | ⟨_, hj⟩
    · cases how with
      | returned result' =>
        cases heq
        exact .inl ⟨hinvoked, List.mem_append_right _ (List.mem_singleton.mpr rfl)⟩
      | raised e => cases heq
      | cancelled => cases heq
    · rcases h.returned j input' result hj with ⟨hinvoked', hdone⟩ | hnoop
      · exact .inl ⟨hinvoked', List.mem_append_left _ hdone⟩
      · exact .inr hnoop

/-- **One step.** -/
theorem tracked_next {w : Scripts S.State} (h : Tracked w) (e : ScriptStep) :
    Tracked (w.next S.port e) := by
  cases e with
  | execute i input =>
    cases hi : w.calls.get? i with
    | some x =>
      simp only [Scripts.next, hi]
      exact h
    | none =>
      simp only [Scripts.next, hi]
      cases hr : S.view w.store (scriptKey input) with
      | none => exact h.execute_free hi hr
      | some r => exact h.execute_reserved hi hr
  | innerEnds i how =>
    cases hi : w.calls.get? i with
    | none =>
      simp only [Scripts.next, hi]
      exact h
    | some x =>
      obtain ⟨input, progress⟩ := x
      cases progress with
      | awaiting =>
        simp only [Scripts.next, hi]
        exact h.innerEnds hi how
      | returned result =>
        simp only [Scripts.next, hi]
        exact h
      | raised e =>
        simp only [Scripts.next, hi]
        exact h

/-! ### What a run of calls may report -/

theorem Tracked.nodup {w : Scripts S.State} (h : Tracked w) : (w.invoked.map Prod.snd).Nodup := by
  have hkeys : ((w.invoked.map Prod.snd).map ScriptIds.key).Nodup := by
    rw [List.map_map]
    exact h.once
  exact hkeys.of_map _

theorem Tracked.invocations_eq_one {w : Scripts S.State} (h : Tracked w) {i : Nat} {ids : ScriptIds}
    (hi : (i, ids) ∈ w.invoked) : w.invocations ids = 1 :=
  List.count_eq_one_of_mem h.nodup (List.mem_map_of_mem hi)

theorem Tracked.deduplicated {w : Scripts S.State} (h : Tracked w) : w.Deduplicated where
  once := fun ids => List.nodup_iff_count_le_one.mp h.nodup ids
  invoked := by
    intro unshared i input result hi
    rcases h.returned i input result hi with ⟨hinvoked, _⟩ | ⟨_, ⟨j, ids⟩, hj, _, hkey⟩
    · exact h.invocations_eq_one hinvoked
    · obtain ⟨y, hy, rfl⟩ := h.invokes j ids hj
      rw [← unshared j i y _ hy hi hkey]
      exact h.invocations_eq_one hj
  success := by
    intro i input result hi hzero
    rcases h.returned i input result hi with ⟨_, hdone⟩ | ⟨hnoop, ⟨j, ids⟩, hj, hji, hkey⟩
    · exact .inl (hzero ▸ hdone)
    · obtain ⟨y, hy, rfl⟩ := h.invokes j ids hj
      exact .inr ⟨hnoop, j, y, hji, hy, hkey, h.invocations_eq_one hj⟩

end Scripts

open Scripts

/-- **What deduplicated scripts report.** However the calls overlap and however the inner
runtime ends, it is invoked at most once for a script of an action of a run, and once for every
script that some call returned for, unless another one has its key; and a call reports a
success only if the inner runtime has completed with it, or as the answer of a slot that an
earlier call took. -/
theorem scripts_deduplicated (S : HealthyStore) {store : S.State}
    (fresh : ∀ ids : ScriptIds, S.view store ids.key = none) (steps : List ScriptStep) :
    (run (Scripts.next S.port) { store := store } steps).Deduplicated :=
  (run_invariant (I := Tracked) (fun _ e h => tracked_next h e) (.start fresh) steps).deduplicated

namespace Sample

def input : ScriptActivityInput where
  runId := "run"
  actionId := "act"
  scriptId := "script"
  scriptContent := "exit 1"
  hostKind := .localProcess

/-- The first call fails, the second finds its slot reserved. -/
def failedTwice : Scripts InMemoryDedupeStore :=
  run (Scripts.next InMemoryDedupeStore.port) { store := .empty }
    [.execute 0 input, .innerEnds 0 (.raised ⟨.runtimeError, "boom"⟩), .execute 1 input]

/-- Two runs whose ids join to one key. -/
def sharedKey : Scripts InMemoryDedupeStore :=
  run (Scripts.next InMemoryDedupeStore.port) { store := .empty }
    [.execute 0 { input with runId := "run:act", actionId := "a" },
      .execute 1 { input with runId := "run", actionId := "act:a" }]

end Sample

theorem failed_script_deduplicated : Sample.failedTwice.Deduplicated :=
  scripts_deduplicated InMemoryDedupeStore.healthy (fun _ => rfl) _

/-- The script has failed, and the second call reports a success; so does a call for a script
that was never handed on. -/
theorem failed_script_reported_done : ¬ Sample.failedTwice.Truthful ∧ ¬ Sample.sharedKey.Truthful := by
  constructor
  · intro truthful
    have hdone := truthful.success 1 Sample.input (noopResult Sample.input) rfl rfl
    exact absurd hdone List.not_mem_nil
  · intro truthful
    have hinvoked := truthful.invoked 1 { Sample.input with runId := "run", actionId := "act:a" } _ rfl
    exact absurd hinvoked (by decide)

end AgentKernel.Cognitive
