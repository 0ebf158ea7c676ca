import AgentKernel.Reconcile.Outbox
import AgentKernel.Turns.Engine

/-! Dedupe stores as turns and crashes leave them.

The three stores the reconciler can look into are sound outboxes. A history is any
interleaving of turns over one of them, in which the process stops after some number of
store calls: the calls that come later never reach the store, so what it holds is what
any prefix of the writes leaves. Whatever the turns do, the store stays one the
reconciler can work with (`History.inv`). -/
namespace AgentKernel.Reconcile
open Lib Dedupe Turns Persistence

/-! ### The stores -/

/-- A store the reconciler can look into, with its empty state. -/
structure SoundOutbox where
  State : Type
  store : OutboxStore State
  Inv : State → Prop
  view : State → Ledger
  /-- Whether a key's text belongs to a run. -/
  lists : String → String → Bool
  sound : store.Sound Inv view lists
  start : State
  start_inv : Inv start

/-- Stores that never fail on marks and reads are exact on them. -/
theorem exact_of_keeps {σ : Type} {S : DedupeStorePort σ} {D : Domain} {Inv : σ → Prop}
    {view : σ → Ledger} (h : Keeps S False D Inv view) (hmark : ∀ L m k p a, D.mark L m k p a)
    (hget : ∀ k, D.get k) : Keeps S False marksOnly Inv view := by
  intro c s hc hs
  refine h c s ?_ hs
  cases c with
  | reserve e => exact hc.elim
  | reserveAndDispatch e peer => exact hc.elim
  | get k => exact hget k
  | markDispatched k peer => exact hmark _ _ _ _ _
  | markAcknowledged k ack => exact hmark _ _ _ _ _
  | markSucceeded k ack => exact hmark _ _ _ _ _
  | markUnknownEffect k => exact hmark _ _ _ _ _

namespace InMemoryDedupeStore

def outboxStore : OutboxStore InMemoryDedupeStore where
  port := InMemoryDedupeStore.port
  collectDedupeKeys := fun runId s => s.keys.filter (fun key => Text.startsWith key (runId ++ ":"))

def outbox : SoundOutbox where
  State := InMemoryDedupeStore
  store := outboxStore
  Inv := fun _ => True
  view := InMemoryDedupeStore.view
  lists := fun runId key => Text.startsWith key (runId ++ ":")
  sound :=
    { follows := by
        intro c s hc hs
        exact (InMemoryDedupeStore.methods_keep.keeps c s hc hs).mono (fun h => h.elim)
      exact := exact_of_keeps InMemoryDedupeStore.methods_keep.keeps (fun _ _ _ _ _ => trivial)
        (fun _ => trivial)
      collects := by
        intro s _ runId key
        have hkey := s.get?_eq_none_iff key
        simp only [outboxStore, List.mem_filter, InMemoryDedupeStore.view, ne_eq, hkey, not_not] }
  start := Dict.empty
  start_inv := trivial

end InMemoryDedupeStore

/-! The two SQLite stores query their table with the `LIKE` pattern of the run. -/

section
variable {δ : Type} (T : TableIn δ)

/-- `SELECT dispatch_idempotency_key … WHERE … LIKE`. -/
def selectLike (pattern : String) (d : δ) : Except PyError (List String × δ) :=
  (fun rows => (rows.map DedupeRecord.dispatchIdempotencyKey, d)) <$> T.whereLike pattern d

/-- A query that fails lists nothing. -/
def sqlOutboxStore : OutboxStore (Conn δ) where
  port := T.methods.port
  collectDedupeKeys := fun runId c =>
    match (Conn.exec busy (selectLike T (TableIn.likePattern runId))).outcome c with
    | .ok keys => keys
    | .error _ => []

/-- Whether the query for a run finds a key that is in the table. -/
def likeLists (runId key : String) : Bool :=
  !Text.tooComplex (TableIn.likePattern runId) && Text.like '\\' (TableIn.likePattern runId) key

theorem collect_idle (runId key : String) (d : δ) :
    key ∈ (sqlOutboxStore T).collectDedupeKeys runId (Conn.idle d []) ↔
      T.view (Conn.idle d []) key ≠ none ∧ likeLists runId key = true := by
  have hexec := Conn.exec_idle busy (selectLike T (TableIn.likePattern runId)) d
  have hsel := (T.table d).select_eq_none_iff key
  show _ ↔ (T.table d).select key ≠ none ∧ _
  rw [Ne, hsel, not_not, List.mem_map, likeLists]
  by_cases hlong : (T.table d).rows ≠ [] ∧ Text.tooComplex (TableIn.likePattern runId) = true
  · have hraised : selectLike T (TableIn.likePattern runId) d = .error TableIn.patternTooComplex := by
      rw [selectLike, TableIn.whereLike, if_pos hlong]
      rfl
    rw [hraised] at hexec
    simp only [sqlOutboxStore, (Call.outcome_error hexec).1]
    exact iff_of_false List.not_mem_nil (fun hand => by simp [hlong.2] at hand)
  · have hread : selectLike T (TableIn.likePattern runId) d =
        .ok (((T.table d).rows.filter (fun r => Text.like '\\' (TableIn.likePattern runId)
          r.dispatchIdempotencyKey)).map DedupeRecord.dispatchIdempotencyKey, d) := by
      rw [selectLike, TableIn.whereLike, if_neg hlong]
      rfl
    rw [hread] at hexec
    simp only [sqlOutboxStore, (Call.outcome_ok hexec).1, List.mem_map, List.mem_filter]
    constructor
    · intro hmem
      obtain ⟨r, ⟨hr, hlike⟩, rfl⟩ := hmem
      have hshort : Text.tooComplex (TableIn.likePattern runId) = false :=
        Bool.eq_false_iff.mpr (fun htoo => hlong ⟨List.ne_nil_of_mem hr, htoo⟩)
      exact ⟨⟨r, hr, rfl⟩, by simp [hshort, hlike]⟩
    · intro hmem
      obtain ⟨⟨r, hr, rfl⟩, hlists⟩ := hmem
      exact ⟨r, ⟨hr, (Bool.and_eq_true_iff.mp hlists).2⟩, rfl⟩

def sqlOutbox (d : δ) : SoundOutbox where
  State := Conn δ
  store := sqlOutboxStore T
  Inv := Reliable
  view := T.view
  lists := likeLists
  sound :=
    { follows := T.methods_reliable.keeps
      exact := exact_of_keeps T.methods_exact.keeps (fun _ _ _ _ _ => trivial) (fun _ => trivial)
      collects := by
        intro c hc runId key
        obtain ⟨d, rfl⟩ := hc
        exact collect_idle T runId key d }
  start := Conn.idle d []
  start_inv := ⟨d, rfl⟩

end

def SQLiteDedupeStore.outbox : SoundOutbox := sqlOutbox sqliteTable Table.empty

def SharedDedupeStore.outbox : SoundOutbox := sqlOutbox bundleTable BundleDb.empty

/-! ### Turns keep what every call of their store keeps -/

section
variable {σ : Type} {S : DedupeStorePort σ} {P : σ → Prop}

/-- Every call keeps the property. -/
def PortPreserves (S : DedupeStorePort σ) (P : σ → Prop) : Prop :=
  ∀ c : LedgerCall, Call.Preserves P (perform S c)

variable (h : PortPreserves S P)
include h

theorem preserves_get (key : String) : Call.Preserves P (S.get key) := (h (.get key)).of_map

theorem preserves_reserveAndDispatch (e : IdempotencyEnvelope) (peer : Option String) :
    Call.Preserves P (S.reserveAndDispatch e peer) := (h (.reserveAndDispatch e peer)).of_map

theorem preserves_markAcknowledged (key : String) (ack : Option String) :
    Call.Preserves P (S.markAcknowledged key ack) := (h (.markAcknowledged key ack)).of_map

theorem preserves_markUnknownEffect (key : String) :
    Call.Preserves P (S.markUnknownEffect key) := (h (.markUnknownEffect key)).of_map

omit h in
theorem preserves_suppressed {α : Type} {x : Call PyError σ (Option α)} (hx : Call.Preserves P x) :
    Call.Preserves P (suppressed x) := hx.tryCatch (fun _ => Call.preserves_pure none)

theorem preserves_phaseDedupe (H : Digest) (t : Turn) (c : Candidate) (r : AdmissionValue)
    (policy : DispatchPolicy) : Call.Preserves P (phaseDedupe S H t c r policy) := by
  have hlookup : Call.Preserves P (legacyLookup S H c) := by
    unfold legacyLookup
    split
    · exact preserves_suppressed (preserves_get h _)
    · exact Call.preserves_pure none
  have hreserve : ∀ e action hostKind events,
      Call.Preserves P (reserveWithDegradation S e action hostKind events) := by
    intro e action hostKind events
    refine ((preserves_reserveAndDispatch h e none).map _).tryCatch (fun err => ?_)
    split
    · exact Call.preserves_throw err
    · exact Call.preserves_pure _
  have hmirror : ∀ reserved, Call.Preserves P (mirrorLegacy S H c reserved) := by
    intro reserved
    unfold mirrorLegacy
    split
    · exact preserves_suppressed ((preserves_reserveAndDispatch h _ _).map _)
    · exact Call.preserves_pure none
  refine hlookup.bind (fun found => ?_)
  cases found with
  | some _ => exact Call.preserves_pure _
  | none =>
    refine (hreserve _ _ _ _).bind (fun reserved => ?_)
    split
    · exact Call.preserves_pure _
    · exact (hmirror reserved).map _

omit h in
theorem preserves_markBoth (d : Dispatch) {markKey : Call PyError σ Unit}
    {mark : String → Call PyError σ Unit} (hkey : Call.Preserves P markKey)
    (hmark : ∀ key, Call.Preserves P (mark key)) : Call.Preserves P (markBoth d markKey mark) := by
  unfold markBoth
  split
  · refine hkey.bind (fun _ => ?_)
    unfold markAlias
    split
    · exact (hmark _).suppress
    · exact Call.preserves_pure ()
  · exact Call.preserves_pure ()

theorem preserves_executionEnded (H : Digest) (t : Turn) (d : Dispatch) (now : String)
    (a : Awaited ExecuteResult) : Call.Preserves P (executionEnded S H t d now a) := by
  have hguarded : ∀ x : Call PyError σ Move, Call.Preserves P x → Call.Preserves P (guarded t x) :=
    fun x hx => hx.tryCatch (fun _ => Call.preserves_pure _)
  cases a with
  | returned result =>
    refine (hguarded _ ?_).map _
    unfold executorReturned
    simp only
    split
    · exact Call.preserves_throw _
    · exact (preserves_markBoth d (preserves_markAcknowledged h _ _)
        (fun k => preserves_markAcknowledged h k _)).map _
    · exact (preserves_markBoth d (preserves_markUnknownEffect h _)
        (fun k => preserves_markUnknownEffect h k)).map _
  | raised r =>
    refine (hguarded _ ?_).map _
    cases r with
    | exception e =>
      exact (preserves_markBoth d (preserves_markUnknownEffect h _).suppress
        (fun k => preserves_markUnknownEffect h k)).map _
    | exit name => exact Call.preserves_pure _
  | timedOut => exact Call.preserves_pure _

/-- A step of a turn keeps what every call of its store keeps. -/
theorem move_preserves (H : Digest) (t : Turn) (ports : Ports) {s : σ} (hs : P s) :
    P (t.move S H ports s).2 := by
  have hadvance : Call.Preserves P (advance S H t ports) := by
    unfold advance
    split
    · split <;> exact Call.preserves_pure _
    · split <;> exact Call.preserves_pure _
    · exact Call.preserves_pure _
    · exact Call.preserves_pure _
    · split <;> exact Call.preserves_pure _
    · exact Call.preserves_pure _
    · exact (preserves_phaseDedupe h H t _ _ _).tryCatch (fun _ => Call.preserves_pure _)
    · exact Call.preserves_pure _
    · exact preserves_executionEnded h H t _ _ _
    · exact Call.preserves_pure _
  have hafter := hadvance s hs
  unfold Call.after at hafter
  unfold Turn.move
  cases hx : advance S H t ports s with
  | ok m s' =>
    rw [hx] at hafter
    exact hafter
  | error e s' =>
    rw [hx] at hafter
    exact hafter

theorem step_preserves (H : Digest) {sys : System σ} (hs : P sys.store) (l : Label) :
    P (sys.step S H l).store := by
  unfold System.step
  split
  · exact hs
  · exact move_preserves h H _ _ hs

theorem interleaved_preserves (H : Digest) {s : σ} (hs : P s) (calls : List TurnCall)
    (labels : List Label) : P (interleaved S H s calls labels).store := by
  exact run_invariant (I := fun sys : System σ => P sys.store)
    (fun sys l hsys => step_preserves h H hsys l) hs labels

/-! ### So does a reconciliation pass -/

theorem preserves_markDispatched (key : String) (peer : Option String) :
    Call.Preserves P (S.markDispatched key peer) := (h (.markDispatched key peer)).of_map

theorem preserves_repairMarks (key : String) (state : Option DedupeState) :
    Call.Preserves P (repairMarks S key state) := by
  unfold repairMarks
  split
  · exact Call.preserves_pure _
  · exact Call.preserves_pure _
  · exact (preserves_markDispatched h key none).bind (fun _ =>
      (preserves_markUnknownEffect h key).bind (fun _ => Call.preserves_pure _))
  · exact (preserves_markUnknownEffect h key).bind (fun _ => Call.preserves_pure _)
  · exact Call.preserves_pure _

theorem preserves_repairViolation (runId : String) (v : ConsistencyViolation) :
    Call.Preserves P (repairViolation S runId v) := by
  have hrepair : ∀ key, Call.Preserves P (repairOrphanedKey S key v) := by
    intro key
    refine (preserves_get h key).bind (fun record => ?_)
    refine (preserves_repairMarks h key _).tryCatch (fun e => ?_)
    unfold skipStateError
    split
    · exact Call.preserves_pure _
    · exact Call.preserves_throw e
  unfold repairViolation
  simp only
  split
  · exact (hrepair _).map _
  · exact Call.preserves_pure _
  · exact Call.preserves_pure _

theorem preserves_repairAll (runId : String) (violations : List ConsistencyViolation) :
    Call.Preserves P (repairAll S runId violations) := by
  induction violations with
  | nil => exact Call.preserves_pure _
  | cons v rest ih =>
    exact (preserves_repairViolation h runId v).bind (fun _ => ih.bind (fun _ => Call.preserves_pure _))

theorem preserves_detectKeys (events : List RuntimeEvent) (runId : String) (keys : List String) :
    Call.Preserves P (detectKeys S events runId keys) := by
  induction keys with
  | nil => exact Call.preserves_pure _
  | cons key rest ih =>
    exact (preserves_get h key).bind (fun _ => ih.bind (fun _ => Call.preserves_pure _))

end

/-- A pass keeps what every call of its store keeps. -/
theorem reconcileLoaded_preserves {σ : Type} {O : OutboxStore σ} {P : σ → Prop}
    (h : PortPreserves O.port P) (runId : String) (loaded : Except PyError (List RuntimeEvent)) :
    Call.Preserves P (reconcileLoaded O runId loaded) := by
  have hverify : Call.Preserves P (verifyLoaded O runId loaded) := by
    unfold verifyLoaded
    split
    · refine Call.Preserves.bind (fun _ hs => hs) (fun store => ?_)
      exact (preserves_detectKeys h _ runId _).bind (fun _ => Call.preserves_pure _)
    · exact Call.preserves_pure _
  exact hverify.bind (fun report =>
    (preserves_repairAll h report.runId report.violations).bind (fun _ => Call.preserves_pure _))

/-! ### Processes that stop -/

section
variable {σ α β : Type}

/-- What a call finds once the process has stopped. -/
def stopped : PyError := ⟨.other "ProcessStopped", ""⟩

/-- A call that reaches the store only while calls are left. -/
def limited (x : Call PyError σ α) : Call PyError (σ × Nat) α := fun s =>
  match s with
  | (s, 0) => .error stopped (s, 0)
  | (s, n + 1) =>
    match x s with
    | .ok a s' => .ok a (s', n)
    | .error e s' => .error e (s', n)

theorem limited_map (f : α → β) (x : Call PyError σ α) :
    (f <$> limited x : Call PyError (σ × Nat) β) = limited (f <$> x) := by
  funext s
  obtain ⟨s, n⟩ := s
  cases n with
  | zero => rfl
  | succ n =>
    simp only [Call.map_apply, limited]
    cases x s <;> rfl

/-- The store of a process that stops after a number of calls. -/
def interrupted (S : DedupeStorePort σ) : DedupeStorePort (σ × Nat) where
  reserve := fun e => limited (S.reserve e)
  markDispatched := fun k peer => limited (S.markDispatched k peer)
  markAcknowledged := fun k ack => limited (S.markAcknowledged k ack)
  markSucceeded := fun k ack => limited (S.markSucceeded k ack)
  markUnknownEffect := fun k => limited (S.markUnknownEffect k)
  reserveAndDispatch := fun e peer => limited (S.reserveAndDispatch e peer)
  get := fun k => limited (S.get k)
  countByRun := fun runId => limited (S.countByRun runId)

theorem perform_interrupted (S : DedupeStorePort σ) (c : LedgerCall) :
    perform (interrupted S) c = limited (perform S c) := by
  cases c <;> exact limited_map _ _

theorem interrupted_preserves {S : DedupeStorePort σ} {P : σ → Prop} (h : PortPreserves S P) :
    PortPreserves (interrupted S) (fun s => P s.1) := by
  intro c
  rw [perform_interrupted]
  intro s hs
  obtain ⟨s, n⟩ := s
  cases n with
  | zero => exact hs
  | succ n =>
    have hafter := h c s hs
    simp only [Call.after, limited] at hafter ⊢
    cases hx : perform S c s with
    | ok a s' =>
      rw [hx] at hafter
      exact hafter
    | error e s' =>
      rw [hx] at hafter
      exact hafter

end

/-! ### Histories -/

/-- Turns, an order of their steps, and the number of store calls after which the process
stops. -/
structure History where
  calls : List TurnCall
  labels : List Label
  stop : Nat

namespace History
variable (B : SoundOutbox) (H : Digest) (history : History)

def system : System (B.State × Nat) :=
  interleaved (interrupted B.store.port) H (B.start, history.stop) history.calls history.labels

/-- What the process leaves behind. -/
def store : B.State := (history.system B H).store.1

theorem inv : B.Inv (history.store B H) := by
  refine interleaved_preserves (P := fun s : B.State × Nat => B.Inv s.1)
    (interrupted_preserves ?_) H B.start_inv _ _
  intro c s hs
  exact (B.sound.follows c s (c.within_all _) hs).1

/-- The record of the key was made by the turn that dispatched the candidate. -/
def Created (c : Candidate) (key : String) : Prop :=
  ∃ i, ⟨i, .dispatched c⟩ ∈ (history.system B H).trace ∧
    ⟨i, .reservation key true⟩ ∈ (history.system B H).trace

end History
end AgentKernel.Reconcile
