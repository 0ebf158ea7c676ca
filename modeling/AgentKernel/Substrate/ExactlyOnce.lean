import AgentKernel.Lib.Dict
import AgentKernel.Lib.Fifo
import AgentKernel.Lib.Latest
import AgentKernel.Turns.Engine

/-! How often a turn is executed.

`execute_turn` looks its key up, awaits the handler and stores the result. Keys are not
scoped by run, calls that miss together both run their handlers, and the cache forgets its
oldest results, so a handler may be run again for a key that is done and a call may be
answered with the turn of another run. A history of calls is exactly-once precisely when no
call finds its key kept for another run, and no handler returns whose call overlaps with one
that stored its turn, or came when that turn had left the cache (`exactly_once_iff`). What the
cache keeps is told from the order of the stores (`keys_cacheTurn`). -/
namespace AgentKernel.Substrate
open Lib Turns

/-! ### The cache -/

/-- The turn `execute_turn` makes of what the handler puts out. -/
structure ExecutedTurn (α : Type) where
  state : TurnState := .effectRecorded
  outcomeKind : TurnOutcomeKind := .dispatched
  decisionRef : String
  decisionFingerprint : String
  output : α
  deriving DecidableEq, Repr

def executedTurn {α : Type} (idempotencyKey : String) (output : α) : ExecutedTurn α where
  decisionRef := idempotencyKey
  decisionFingerprint := idempotencyKey
  output := output

/-- A turn, and the run it was executed for. -/
structure CachedTurn (α : Type) where
  turn : ExecutedTurn α
  runId : String
  deriving DecidableEq, Repr

/-- Store a turn; when the cache is too large, the oldest entry goes. -/
def cacheTurn {α : Type} (maxCacheSize : Int) (cache : Dict String (CachedTurn α)) (key : String)
    (turn : CachedTurn α) : Dict String (CachedTurn α) :=
  let stored := cache.set key turn
  if (stored.size : Int) > maxCacheSize then
    match stored.keys with
    | oldest :: _ => stored.erase oldest
    | [] => stored
  else stored

/-- **The cache keeps what has entered last.** -/
theorem keys_cacheTurn {α : Type} {maxCacheSize : Int} {cache : Dict String (CachedTurn α)}
    (hsize : cache.size ≤ maxCacheSize.toNat) (key : String) (turn : CachedTurn α) :
    (cacheTurn maxCacheSize cache key turn).keys =
      (if key ∈ cache.keys then cache.keys else cache.keys ++ [key]).rtake maxCacheSize.toNat := by
  have hkeys := cache.keys_set key turn
  have hgrown := cache.size_set key turn
  rw [← hkeys]
  simp only [cacheTurn]
  split
  · rename_i hlarge
    -- only a key that was not there makes the cache too large, by one
    have hnew : key ∉ cache.keys := by
      intro hmem
      have hpos := List.length_pos_of_mem hmem
      rw [Dict.length_keys] at hpos
      rw [if_pos hmem] at hgrown
      omega
    have hlength : (cache.set key turn).keys.length = maxCacheSize.toNat + 1 := by
      rw [if_neg hnew] at hgrown
      rw [Dict.length_keys]
      omega
    split
    · rename_i oldest rest hcons
      rw [Dict.keys_erase_head hcons, List.rtake, hlength, hcons, Nat.add_sub_cancel_left]
      rfl
    · rename_i hnil
      rw [hnil] at hlength
      cases hlength
  · rename_i hsmall
    refine (Fifo.rtake_of_length_le ?_).symm
    rw [Dict.length_keys]
    omega

theorem get?_cacheTurn {α : Type} {maxCacheSize : Int} {cache : Dict String (CachedTurn α)}
    {key key' : String} {turn turn' : CachedTurn α}
    (h : (cacheTurn maxCacheSize cache key turn).get? key' = some turn') :
    (if key' = key then some turn else cache.get? key') = some turn' := by
  rw [← Dict.get?_set]
  simp only [cacheTurn] at h
  split at h
  · split at h
    · rw [Dict.get?_erase] at h
      split at h
      · cases h
      · exact h
    · exact h
  · exact h

/-! ### Calls -/

/-- A call that awaits its handler, and how many turns had been executed when it was made. -/
structure AwaitingCall where
  runId : String
  key : String
  since : Nat
  deriving DecidableEq, Repr

/-- A turn that was executed for a run and key, or returned to a call with them. -/
structure TurnFor (α : Type) where
  runId : String
  key : String
  turn : CachedTurn α
  deriving DecidableEq, Repr

def TurnFor.subject {α : Type} (t : TurnFor α) : String × String := (t.runId, t.key)

/-- The gateway, the calls under way, and what was executed and returned so far. -/
structure TurnDesk (α : Type) where
  maxCacheSize : Int := 5000
  cache : Dict String (CachedTurn α) := Dict.empty
  awaiting : Dict Nat AwaitingCall := Dict.empty
  executed : List (TurnFor α) := []
  returned : List (TurnFor α) := []

/-- A call is made, or the handler of one returns or raises. -/
inductive TurnEvent (α : Type) where
  | call (id : Nat) (runId idempotencyKey : String)
  | handlerReturns (id : Nat) (output : α)
  | handlerRaises (id : Nat)

namespace TurnDesk
variable {α : Type}

/-- A turn was executed for the run and key. -/
def Executed (d : TurnDesk α) (subject : String × String) : Prop := subject ∈ d.executed.map TurnFor.subject

/-- The call has its turn executed, stored and returned. -/
def finish (d : TurnDesk α) (id : Nat) (c : AwaitingCall) (output : α) : TurnDesk α :=
  let turn : CachedTurn α := ⟨executedTurn c.key output, c.runId⟩
  { d with
    cache := cacheTurn d.maxCacheSize d.cache c.key turn
    awaiting := d.awaiting.erase id
    executed := d.executed ++ [⟨c.runId, c.key, turn⟩]
    returned := d.returned ++ [⟨c.runId, c.key, turn⟩] }

/-- The call is answered from the cache. -/
def answer (d : TurnDesk α) (runId key : String) (turn : CachedTurn α) : TurnDesk α :=
  { d with returned := d.returned ++ [⟨runId, key, turn⟩] }

/-- The call misses and awaits its handler. -/
def miss (d : TurnDesk α) (id : Nat) (runId key : String) : TurnDesk α :=
  { d with awaiting := d.awaiting.set id ⟨runId, key, d.executed.length⟩ }

def next (d : TurnDesk α) : TurnEvent α → TurnDesk α
  | .call id runId key =>
    if id ∈ d.awaiting.keys then d
    else
      match d.cache.get? key with
      | some turn => d.answer runId key turn
      | none => d.miss id runId key
  | .handlerReturns id output =>
    match d.awaiting.get? id with
    | some c => d.finish id c output
    | none => d
  | .handlerRaises id => { d with awaiting := d.awaiting.erase id }

/-! ### What is asked of a history -/

/-- For a run and key one handler has returned at most, all calls got the same turn, and it
was executed for their run. -/
structure ExactlyOnce (d : TurnDesk α) : Prop where
  once : (d.executed.map TurnFor.subject).Nodup
  same : ∀ t ∈ d.returned, ∀ t' ∈ d.returned, t.subject = t'.subject → t.turn = t'.turn
  own : ∀ t ∈ d.returned, t.turn.runId = t.runId

/-- The cache keeps the key after these turns were stored. -/
def Kept (d : TurnDesk α) (executed : List (TurnFor α)) (key : String) : Prop :=
  Fifo.Kept d.maxCacheSize.toNat (executed.map TurnFor.key) key

/-- A turn of the call's run and key was stored while the call was under way. -/
def Overlapped (d : TurnDesk α) (c : AwaitingCall) : Prop :=
  (c.runId, c.key) ∈ (d.executed.drop c.since).map TurnFor.subject

/-- A turn of the call's run and key had been stored before the call, when as many other keys
had entered since its own that the cache did not keep it. -/
def Forgotten (d : TurnDesk α) (c : AwaitingCall) : Prop :=
  (c.runId, c.key) ∈ (d.executed.take c.since).map TurnFor.subject ∧
    ¬ d.Kept (d.executed.take c.since) c.key

/-- The last turn that was stored under the key. -/
def lastStored (d : TurnDesk α) (key : String) : Option (TurnFor α) :=
  lastOfKey TurnFor.key d.executed key

/-- A key that is kept when a call comes was stored for its run last, and a handler that returns
belongs to a call that neither overlaps with one of its run and key nor comes too late. -/
def Undisturbed (d : TurnDesk α) : TurnEvent α → Prop
  | .call id runId key => id ∉ d.awaiting.keys → d.Kept d.executed key →
    ∀ t, d.lastStored key = some t → t.runId = runId
  | .handlerReturns id _ => ∀ c, d.awaiting.get? id = some c → ¬ d.Overlapped c ∧ ¬ d.Forgotten c
  | .handlerRaises _ => True

/-- The cache holds the last turns of the keys it keeps, a call that awaits its handler came
when its key was not kept, and what calls of a run got was executed for it. -/
structure Accounted (d : TurnDesk α) : Prop where
  keys : d.cache.keys =
    (Fifo.entries d.maxCacheSize.toNat (d.executed.map TurnFor.key)).rtake d.maxCacheSize.toNat
  cached : ∀ key turn, d.cache.get? key = some turn → d.lastStored key = some ⟨turn.runId, key, turn⟩
  returned : ∀ t ∈ d.returned, t.turn.runId = t.runId → t ∈ d.executed
  missed : ∀ id c, d.awaiting.get? id = some c →
    c.since ≤ d.executed.length ∧ ¬ d.Kept (d.executed.take c.since) c.key

/-! ### One event -/

variable {d : TurnDesk α}

theorem next_call_known {id : Nat} (h : id ∈ d.awaiting.keys) (runId key : String) :
    d.next (.call id runId key) = d := if_pos h

theorem next_call_hit {id : Nat} (h : id ∉ d.awaiting.keys) {runId key : String} {turn : CachedTurn α}
    (hcached : d.cache.get? key = some turn) :
    d.next (.call id runId key) = d.answer runId key turn := by
  simp only [next, if_neg h, hcached]

theorem next_call_miss {id : Nat} (h : id ∉ d.awaiting.keys) {runId key : String}
    (hcached : d.cache.get? key = none) : d.next (.call id runId key) = d.miss id runId key := by
  simp only [next, if_neg h, hcached]

theorem next_returns {id : Nat} {c : AwaitingCall} (h : d.awaiting.get? id = some c) (output : α) :
    d.next (.handlerReturns id output) = d.finish id c output := by
  simp only [next, h]

theorem next_returns_unknown {id : Nat} (h : d.awaiting.get? id = none) (output : α) :
    d.next (.handlerReturns id output) = d := by
  simp only [next, h]

theorem turn_unique (h : (d.executed.map TurnFor.subject).Nodup) {t t' : TurnFor α} (ht : t ∈ d.executed)
    (ht' : t' ∈ d.executed) (hsubject : t.subject = t'.subject) : t = t' :=
  List.inj_on_of_nodup_map h ht ht' hsubject

theorem mem_lastStored {key : String} {t : TurnFor α} (h : d.lastStored key = some t) : t ∈ d.executed := by
  obtain ⟨_, before, after, hsplit, _⟩ := findRev?_eq_some_iff.mp h
  exact hsplit ▸ List.mem_append_right before List.mem_cons_self

/-- **A key is cached exactly when it is kept**, and then with its last turn. -/
theorem get?_eq_some_iff (ha : d.Accounted) {key : String} {turn : CachedTurn α} :
    d.cache.get? key = some turn ↔
      d.Kept d.executed key ∧ d.lastStored key = some ⟨turn.runId, key, turn⟩ := by
  constructor
  · intro hcached
    refine ⟨?_, ha.cached key turn hcached⟩
    have hmem := (d.cache.mem_keys_iff key).mpr ⟨turn, hcached⟩
    rw [ha.keys] at hmem
    exact hmem
  · intro ⟨hkept, hlast⟩
    have hmem : key ∈ d.cache.keys := by
      rw [ha.keys]
      exact hkept
    obtain ⟨turn', hcached⟩ := (d.cache.mem_keys_iff key).mp hmem
    have hsame := hlast.symm.trans (ha.cached key turn' hcached)
    rw [hcached, (TurnFor.mk.inj (Option.some.inj hsame)).2.2]

/-- A turn of the run and key of a call that awaits its handler was stored after the call, or
was forgotten before it. -/
theorem executed_iff (ha : d.Accounted) {id : Nat} {c : AwaitingCall}
    (hawaiting : d.awaiting.get? id = some c) :
    d.Executed (c.runId, c.key) ↔ d.Overlapped c ∨ d.Forgotten c := by
  obtain ⟨_, hmissed⟩ := ha.missed id c hawaiting
  unfold Executed Overlapped Forgotten
  rw [← List.take_append_drop c.since d.executed, List.map_append, List.mem_append,
    List.take_append_drop, or_comm, and_iff_left hmissed]

theorem exactlyOnce_answer_iff (h : d.ExactlyOnce) (ha : d.Accounted) {runId key : String}
    {turn : CachedTurn α} (hcached : d.cache.get? key = some turn) :
    (d.answer runId key turn).ExactlyOnce ↔ turn.runId = runId := by
  constructor
  · intro hnext
    exact hnext.own ⟨runId, key, turn⟩ (List.mem_append_right _ (List.mem_singleton.mpr rfl))
  · intro hown
    subst hown
    have hexecuted := mem_lastStored (ha.cached key turn hcached)
    have hanswer : ∀ t ∈ d.returned, t.subject = (turn.runId, key) → t.turn = turn := by
      intro t ht hsubject
      have hsame := turn_unique h.once (ha.returned t ht (h.own t ht)) hexecuted hsubject
      rw [hsame]
    refine ⟨h.once, fun t ht t' ht' hsubject => ?_, fun t ht => ?_⟩
    · rcases List.mem_append.mp ht with hold | hnew
      · rcases List.mem_append.mp ht' with hold' | hnew'
        · exact h.same t hold t' hold' hsubject
        · rw [List.mem_singleton.mp hnew'] at hsubject ⊢
          exact hanswer t hold hsubject
      · rw [List.mem_singleton.mp hnew] at hsubject ⊢
        rcases List.mem_append.mp ht' with hold' | hnew'
        · exact (hanswer t' hold' hsubject.symm).symm
        · rw [List.mem_singleton.mp hnew']
    · rcases List.mem_append.mp ht with hold | hnew
      · exact h.own t hold
      · rw [List.mem_singleton.mp hnew]

theorem exactlyOnce_finish_iff (h : d.ExactlyOnce) (ha : d.Accounted) {id : Nat} {c : AwaitingCall}
    (output : α) : (d.finish id c output).ExactlyOnce ↔ ¬ d.Executed (c.runId, c.key) := by
  constructor
  · intro hnext hexecuted
    have honce := hnext.once
    simp only [finish, List.map_append, List.map_singleton] at honce
    exact (List.nodup_append.mp honce).2.2 _ hexecuted _ (List.mem_singleton.mpr rfl) rfl
  · intro hnew
    have hother : ∀ t ∈ d.returned, t.subject ≠ (c.runId, c.key) := by
      intro t ht hsubject
      exact hnew (hsubject ▸ List.mem_map_of_mem (ha.returned t ht (h.own t ht)))
    refine ⟨?_, fun t ht t' ht' hsubject => ?_, fun t ht => ?_⟩
    · simp only [finish, List.map_append, List.map_singleton]
      refine List.nodup_append.mpr ⟨h.once, List.nodup_singleton _, ?_⟩
      intro a ha b hb hab
      rw [List.mem_singleton.mp hb] at hab
      rw [hab] at ha
      exact hnew ha
    · rcases List.mem_append.mp ht with hold | hlast
      · rcases List.mem_append.mp ht' with hold' | hlast'
        · exact h.same t hold t' hold' hsubject
        · rw [List.mem_singleton.mp hlast'] at hsubject
          exact absurd hsubject (hother t hold)
      · rw [List.mem_singleton.mp hlast] at hsubject ⊢
        rcases List.mem_append.mp ht' with hold' | hlast'
        · exact absurd hsubject.symm (hother t' hold')
        · rw [List.mem_singleton.mp hlast']
    · rcases List.mem_append.mp ht with hold | hlast
      · exact h.own t hold
      · rw [List.mem_singleton.mp hlast]

/-- **An event keeps a history exactly-once exactly when it is undisturbed.** -/
theorem exactlyOnce_next_iff (h : d.ExactlyOnce) (ha : d.Accounted) (e : TurnEvent α) :
    (d.next e).ExactlyOnce ↔ d.Undisturbed e := by
  cases e with
  | call id runId key =>
    by_cases hknown : id ∈ d.awaiting.keys
    · rw [next_call_known hknown]
      exact iff_of_true h (fun hnew => absurd hknown hnew)
    · cases hcached : d.cache.get? key with
      | none =>
        rw [next_call_miss hknown hcached]
        refine iff_of_true ⟨h.once, h.same, h.own⟩ (fun _ hkept => ?_)
        have hmem : key ∈ d.cache.keys := by
          rw [ha.keys]
          exact hkept
        exact absurd hmem ((d.cache.get?_eq_none_iff key).mp hcached)
      | some turn =>
        obtain ⟨hkept, hlast⟩ := (get?_eq_some_iff ha).mp hcached
        rw [next_call_hit hknown hcached, exactlyOnce_answer_iff h ha hcached]
        simp [Undisturbed, hknown, hkept, hlast]
  | handlerReturns id output =>
    cases hawaiting : d.awaiting.get? id with
    | none =>
      rw [next_returns_unknown hawaiting]
      refine iff_of_true h (fun c hc => ?_)
      rw [hawaiting] at hc
      cases hc
    | some c =>
      rw [next_returns hawaiting, exactlyOnce_finish_iff h ha, executed_iff ha hawaiting, not_or]
      simp [Undisturbed, hawaiting]
  | handlerRaises id => exact iff_of_true ⟨h.once, h.same, h.own⟩ trivial

theorem size_cache_le (ha : d.Accounted) : d.cache.size ≤ d.maxCacheSize.toNat := by
  rw [← Dict.length_keys, ha.keys]
  exact Fifo.length_rtake_le _ _

theorem accounted_finish (ha : d.Accounted) {id : Nat} {c : AwaitingCall} (output : α) :
    (d.finish id c output).Accounted := by
  refine ⟨?_, fun key turn hcached => ?_, fun t ht hown => ?_, fun id' c' hawaiting => ?_⟩
  · show (cacheTurn d.maxCacheSize d.cache c.key _).keys = _
    rw [keys_cacheTurn (size_cache_le ha)]
    simp only [finish, List.map_append, List.map_singleton]
    rw [Fifo.entries_append_singleton, Fifo.rtake_enter, ← ha.keys]
  · simp only [lastStored, lastOfKey, finish]
    rw [findRev?_append_singleton]
    have hstored := get?_cacheTurn hcached
    by_cases hkey : key = c.key
    · rw [if_pos hkey] at hstored
      obtain rfl := Option.some.inj hstored
      rw [if_pos (decide_eq_true hkey.symm), hkey]
    · rw [if_neg hkey] at hstored
      rw [if_neg (by simpa using Ne.symm hkey)]
      exact ha.cached key turn hstored
  · rcases List.mem_append.mp ht with hold | hlast
    · exact List.mem_append_left _ (ha.returned t hold hown)
    · exact List.mem_append_right _ hlast
  · simp only [finish, Dict.get?_erase] at hawaiting
    split at hawaiting
    · cases hawaiting
    · obtain ⟨hsince, hmissed⟩ := ha.missed id' c' hawaiting
      refine ⟨hsince.trans ?_, ?_⟩
      · simp [finish]
      · simp only [finish]
        rw [List.take_append_of_le_length hsince]
        exact hmissed

theorem accounted_next (ha : d.Accounted) {e : TurnEvent α} (hundisturbed : d.Undisturbed e) :
    (d.next e).Accounted := by
  cases e with
  | call id runId key =>
    by_cases hknown : id ∈ d.awaiting.keys
    · rw [next_call_known hknown]
      exact ha
    · cases hcached : d.cache.get? key with
      | none =>
        rw [next_call_miss hknown hcached]
        refine ⟨ha.keys, ha.cached, ha.returned, fun id' c hawaiting => ?_⟩
        simp only [miss, Dict.get?_set] at hawaiting
        split at hawaiting
        · obtain rfl := Option.some.inj hawaiting
          refine ⟨Nat.le_refl _, fun hkept => ?_⟩
          have hmem : key ∈ d.cache.keys := by
            rw [ha.keys]
            exact (List.take_length (l := d.executed)) ▸ hkept
          exact absurd hmem ((d.cache.get?_eq_none_iff key).mp hcached)
        · exact ha.missed id' c hawaiting
      | some turn =>
        obtain ⟨hkept, hlast⟩ := (get?_eq_some_iff ha).mp hcached
        have hown : turn.runId = runId := hundisturbed hknown hkept _ hlast
        rw [next_call_hit hknown hcached]
        refine ⟨ha.keys, ha.cached, fun t ht hrun => ?_, ha.missed⟩
        rcases List.mem_append.mp ht with hold | hnew
        · exact ha.returned t hold hrun
        · rw [List.mem_singleton.mp hnew, ← hown]
          exact mem_lastStored hlast
  | handlerReturns id output =>
    cases hawaiting : d.awaiting.get? id with
    | none =>
      rw [next_returns_unknown hawaiting]
      exact ha
    | some c =>
      rw [next_returns hawaiting]
      exact accounted_finish ha output
  | handlerRaises id =>
    refine ⟨ha.keys, ha.cached, ha.returned, fun id' c hawaiting => ?_⟩
    simp only [next, Dict.get?_erase] at hawaiting
    split at hawaiting
    · cases hawaiting
    · exact ha.missed id' c hawaiting

end TurnDesk

/-- **When turns are executed exactly once.** For every size of the cache and every order in
which calls are made and their handlers return or raise, the history is exactly-once
throughout exactly when no event of it is disturbed. -/
theorem exactly_once_iff {α : Type} (maxCacheSize : Int) (events : List (TurnEvent α)) :
    (∀ pre, pre <+: events →
      (run TurnDesk.next { maxCacheSize := maxCacheSize } pre).ExactlyOnce) ↔
    Along TurnDesk.next TurnDesk.Undisturbed { maxCacheSize := maxCacheSize } events := by
  refine forall_prefix_iff_along (J := fun d : TurnDesk α => d.ExactlyOnce ∧ d.Accounted)
    (A := fun _ _ => True) (fun _ h => h.1) (fun d e _ h => TurnDesk.exactlyOnce_next_iff h.1 h.2 e)
    (fun d e _ h hundisturbed => ?_) ⟨?_, ?_⟩ (.of_forall (fun _ _ => trivial) _ events)
  · exact ⟨(TurnDesk.exactlyOnce_next_iff h.1 h.2 e).mpr hundisturbed,
      TurnDesk.accounted_next h.2 hundisturbed⟩
  · exact ⟨List.nodup_nil, fun _ h => absurd h List.not_mem_nil, fun _ h => absurd h List.not_mem_nil⟩
  · refine ⟨(List.rtake_nil _).symm, fun _ _ h => ?_, fun _ h => absurd h List.not_mem_nil, fun _ _ h => ?_⟩
    · cases h
    · cases h

namespace Sample

/-- Two calls with one key look it up before either handler is done. -/
def racing : List (TurnEvent Nat) :=
  [.call 1 "run" "key", .call 2 "run" "key", .handlerReturns 1 10, .handlerReturns 2 20]

end Sample

/-- Both handlers run to their end, and the calls return different turns. -/
theorem racing_calls_run_twice :
    (run TurnDesk.next {} Sample.racing).returned.map (fun t => t.turn.turn.output) = [10, 20] ∧
    ¬ (run TurnDesk.next {} Sample.racing).ExactlyOnce := by
  refine ⟨by decide +kernel, fun h => ?_⟩
  exact absurd h.once (by decide +kernel)

end AgentKernel.Substrate
