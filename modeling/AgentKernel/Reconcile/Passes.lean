import AgentKernel.Reconcile.Histories

/-! One pass after the other.

A pass only loses open records, so what it leaves is closed, and a second pass over the same
events finds nothing to do. A store may have another writer in the way, so that the marks of
some keys raise: each such repair is skipped, and the rest of the pass does what it would have
done. -/
namespace AgentKernel.Reconcile
open Lib Dedupe

/-! ### A store with another writer -/

/-- The messages of the state errors that the marks of a key raise. -/
abbrev Refusal := Mark → String → Option String

/-- The call, unless it is refused. -/
def refused {σ α : Type} (message : Option String) (x : Call PyError σ α) : Call PyError σ α :=
  match message with
  | some m => throw ⟨.dedupeStoreStateError, m⟩
  | none => x

def OutboxStore.refusing {σ : Type} (O : OutboxStore σ) (refusal : Refusal) : OutboxStore σ :=
  { O with
    port :=
      { O.port with
        markDispatched := fun key peer =>
          refused (refusal .dispatched key) (O.port.markDispatched key peer)
        markUnknownEffect := fun key =>
          refused (refusal .unknownEffect key) (O.port.markUnknownEffect key) } }

/-- Some mark of the key is refused. -/
def Refused (refusal : Refusal) (key : String) : Prop :=
  refusal .dispatched key ≠ none ∨ refusal .unknownEffect key ≠ none

/-! ### What is asked of passes -/

/-- Open records may be lost, and nothing else changes. -/
def LegalMoves (before after : Ledger) : Prop :=
  ∀ key, after key = before key ∨
    ∃ r, before key = some r ∧ (r.state = .reserved ∨ r.state = .dispatched) ∧
      after key = some { r with state := .unknownEffect }

/-- A record that is open, listed for the run and named by no event of the log is lost. -/
def LosesOrphans {σ : Type} (O : OutboxStore σ) (runId : String) (loaded : Except PyError (List RuntimeEvent))
    (s : σ) (before after : Ledger) : Prop :=
  ∀ events key r, loaded = .ok events → key ∈ O.collectDedupeKeys runId s →
    key ∉ eventIdempotencyKeys events → before key = some r →
    (r.state = .reserved ∨ r.state = .dispatched) → after key = some { r with state := .unknownEffect }

/-- The action has repaired nothing. -/
def ReconciliationAction.Idle (action : ReconciliationAction) : Prop :=
  action.actionTaken = .skipped ∨ action.actionTaken = .loggedForReview

/-- The state is one a repair leaves alone. -/
def Closed (state : DedupeState) : Prop := state ≠ .reserved ∧ state ≠ .dispatched

theorem closed_lost (r : DedupeRecord) : Closed (lost r).state := by
  unfold lost Closed
  cases hs : r.state <;> simp [hs]

theorem lost_cases (r : DedupeRecord) :
    lost r = r ∨ (r.state = .reserved ∨ r.state = .dispatched) ∧
      lost r = { r with state := .unknownEffect } := by
  unfold lost
  cases hs : r.state <;> simp

/-- A closed record is skipped. -/
theorem repairMarks_closed {σ : Type} (S : DedupeStorePort σ) (key : String) {state : DedupeState}
    (h : Closed state) : ∃ detail, repairMarks S key (some state) = pure (.skipped, detail) := by
  cases state with
  | reserved => exact absurd rfl h.1
  | dispatched => exact absurd rfl h.2
  | acknowledged | succeeded | unknownEffect => exact ⟨_, rfl⟩

section
variable {σ : Type} {O : OutboxStore σ}

theorem detectKeys_refusing (refusal : Refusal) (events : List RuntimeEvent) (runId : String)
    (keys : List String) :
    detectKeys (O.refusing refusal).port events runId keys = detectKeys O.port events runId keys := by
  induction keys with
  | nil => rfl
  | cons key rest ih =>
    simp only [detectKeys, ih]
    rfl

theorem verifyLoaded_refusing (refusal : Refusal) (runId : String)
    (loaded : Except PyError (List RuntimeEvent)) :
    verifyLoaded (O.refusing refusal) runId loaded = verifyLoaded O runId loaded := by
  unfold verifyLoaded detectViolations
  simp only [detectKeys_refusing]
  rfl

/-- Without the events a pass says so and leaves the store alone. -/
theorem reconcileLoaded_unavailable (O : OutboxStore σ) (e : PyError) (runId : String) (s : σ) :
    ∃ result, reconcileLoaded O runId (.error e) s = .ok result s ∧ (∀ a ∈ result.actions, a.Idle) ∧
      result.actions.map ReconciliationAction.idempotencyKey = [""] := by
  refine ⟨_, rfl, ?_, rfl⟩
  intro a ha
  rw [List.mem_singleton.mp ha]
  exact .inl rfl

/-- The marks of a key that is not refused are the store's own. -/
theorem repairViolation_unrefused {refusal : Refusal} (runId : String) (v : ConsistencyViolation)
    (hfree : ¬ Refused refusal (v.idempotencyKey.getD "")) :
    repairViolation (O.refusing refusal).port runId v = repairViolation O.port runId v := by
  obtain ⟨hd, hu⟩ := not_or.mp hfree
  have hmarks : repairMarks (O.refusing refusal).port (v.idempotencyKey.getD "") =
      repairMarks O.port (v.idempotencyKey.getD "") := by
    funext state
    unfold repairMarks
    simp only [OutboxStore.refusing, not_not.mp hd, not_not.mp hu, refused]
  have hrepair : repairOrphanedKey (O.refusing refusal).port (v.idempotencyKey.getD "") v =
      repairOrphanedKey O.port (v.idempotencyKey.getD "") v := by
    unfold repairOrphanedKey
    rw [hmarks]
    rfl
  unfold repairViolation
  simp only [hrepair]

end

namespace OutboxStore.Sound
variable {σ : Type} {O : OutboxStore σ} {Inv : σ → Prop} {view : σ → Ledger}
  {lists : String → String → Bool} (h : O.Sound Inv view lists)
include h

/-! ### The second pass -/

/-- A repair whose record is closed changes nothing. -/
theorem repairViolation_idle (runId : String) (v : ConsistencyViolation) {s : σ} (hs : Inv s)
    (closed : ∀ key ∈ orphans [v], ∃ r, view s key = some r ∧ Closed r.state) :
    ∃ action s', repairViolation O.port runId v s = .ok action s' ∧ action.Idle ∧
      view s' = view s ∧ Inv s' := by
  unfold repairViolation
  cases hkind : v.kind with
  | orphanedDedupeKey =>
    have horphans : orphans [v] = [v.idempotencyKey.getD ""] := by simp [orphans, hkind]
    obtain ⟨r, hr, hclosed⟩ := closed (v.idempotencyKey.getD "") (by rw [horphans]; exact List.mem_cons_self)
    obtain ⟨s', hget, hview, hs'⟩ := h.get_eval hs (v.idempotencyKey.getD "")
    obtain ⟨detail, hskip⟩ := repairMarks_closed O.port (v.idempotencyKey.getD "") hclosed
    refine ⟨⟨v.idempotencyKey.getD "", .orphanedDedupeKey, .skipped, detail⟩, s', ?_, .inl rfl, hview, hs'⟩
    simp only [Call.map_apply, repairOrphanedKey, Call.bind_apply, hget, hr, Call.tryCatch_apply, hskip,
      Call.pure_apply]
  | unknownEffectNoLogEvidence => exact ⟨_, s, rfl, .inr rfl, rfl, hs⟩
  | eventLogUnavailable => exact ⟨_, s, rfl, .inl rfl, rfl, hs⟩

theorem repairAll_idle (runId : String) (violations : List ConsistencyViolation) {s : σ} (hs : Inv s)
    (closed : ∀ key ∈ orphans violations, ∃ r, view s key = some r ∧ Closed r.state) :
    ∃ actions s', repairAll O.port runId violations s = .ok actions s' ∧ (∀ a ∈ actions, a.Idle) ∧
      view s' = view s ∧ Inv s' := by
  induction violations generalizing s with
  | nil => exact ⟨[], s, rfl, fun _ ha => absurd ha List.not_mem_nil, rfl, hs⟩
  | cons v rest ih =>
    rw [orphans_cons] at closed
    obtain ⟨action, s₁, hv, hidle, hview₁, hs₁⟩ := h.repairViolation_idle runId v hs
      (fun key hk => closed key (List.mem_append_left _ hk))
    obtain ⟨actions, s₂, hrest, hidles, hview₂, hs₂⟩ := ih hs₁ (by
      intro key hk
      rw [hview₁]
      exact closed key (List.mem_append_right _ hk))
    refine ⟨action :: actions, s₂, ?_, ?_, hview₂.trans hview₁, hs₂⟩
    · simp only [repairAll, Call.bind_apply, hv, hrest, Call.pure_apply]
    · intro a ha
      rcases List.mem_cons.mp ha with rfl | ha
      · exact hidle
      · exact hidles a ha

/-- **A pass over closed orphans changes nothing.** -/
theorem reconcileLoaded_idle (events : List RuntimeEvent) (runId : String) {s : σ} (hs : Inv s)
    (closed : ∀ key, lists runId key = true → key ∉ eventIdempotencyKeys events →
      ∀ r, view s key = some r → Closed r.state) :
    ∃ result s', reconcileLoaded O runId (.ok events) s = .ok result s' ∧ (∀ a ∈ result.actions, a.Idle) ∧
      view s' = view s := by
  obtain ⟨report, s₁, hverify, hrun, hfound, hview₁, hs₁⟩ := h.verifyLoaded_eval events runId hs
  obtain ⟨actions, s₂, hrepair, hidle, hview₂, _⟩ :=
    h.repairAll_idle report.runId report.violations hs₁ (by
      intro key hkey
      rw [hfound] at hkey
      obtain ⟨hlisted, hpresent, hevents⟩ := mem_orphans_found_iff.mp hkey
      obtain ⟨r, hr⟩ := Option.ne_none_iff_exists'.mp hpresent
      rw [hview₁]
      exact ⟨r, hr, closed key ((h.collects s hs runId key).mp hlisted).2 hevents r hr⟩)
  refine ⟨{ runId := report.runId
            actions := actions
            violationsFound := report.violations.length
            violationsRepaired := (actions.filter (fun a => a.actionTaken ≠ .skipped)).length },
    s₂, ?_, hidle, hview₂.trans hview₁⟩
  simp only [reconcileLoaded, Call.bind_apply, hverify, applyRepairs, hrepair, Call.pure_apply]

/-! ### A pass in which marks are refused -/

/-- The mark of a dispatched record moves it or, refused, raises and leaves it. -/
theorem markUnknownEffect_refusing (refusal : Refusal) {s : σ} (hs : Inv s) {key : String}
    {r : DedupeRecord} (hr : view s key = some r) (hstate : r.state = .dispatched) :
    ∃ s' r', ((O.refusing refusal).port.markUnknownEffect key s = .ok () s' ∨
        ∃ m, (O.refusing refusal).port.markUnknownEffect key s = .error ⟨.dedupeStoreStateError, m⟩ s') ∧
      view s' = (view s).put key r' ∧ Inv s' := by
  cases hrefused : refusal .unknownEffect key with
  | some m =>
    refine ⟨s, r, .inr ⟨m, ?_⟩, (put_same hr).symm, hs⟩
    simp only [OutboxStore.refusing, hrefused]
    rfl
  | none =>
    obtain ⟨s', hx, hview, hs'⟩ := h.markUnknownEffect_eval hs hr hstate
    refine ⟨s', _, .inl ?_, hview, hs'⟩
    simp only [OutboxStore.refusing, hrefused]
    exact hx

/-- However the marks of a repair end, they touch its key only. -/
theorem repairMarks_refusing (refusal : Refusal) {s : σ} (hs : Inv s) {key : String} {r : DedupeRecord}
    (hr : view s key = some r) :
    ∃ s' r', ((∃ done, repairMarks (O.refusing refusal).port key (some r.state) s = .ok done s') ∨
        ∃ m, repairMarks (O.refusing refusal).port key (some r.state) s =
          .error ⟨.dedupeStoreStateError, m⟩ s') ∧
      view s' = (view s).put key r' ∧ Inv s' := by
  by_cases hclosed : Closed r.state
  · obtain ⟨detail, hskip⟩ := repairMarks_closed (O.refusing refusal).port key hclosed
    exact ⟨s, r, .inl ⟨(.skipped, detail), by rw [hskip]; rfl⟩, (put_same hr).symm, hs⟩
  -- An open record is marked once or twice, and each mark may be refused.
  cases hstate : r.state with
  | acknowledged | succeeded | unknownEffect => simp [Closed, hstate] at hclosed
  | dispatched =>
    obtain ⟨s', r', hmark, hview, hs'⟩ := h.markUnknownEffect_refusing refusal hs hr hstate
    refine ⟨s', r', ?_, hview, hs'⟩
    rcases hmark with hok | ⟨m, herror⟩
    · exact .inl ⟨(.markedUnknownEffect, repairedDetail key .dispatched), by
        simp only [repairMarks, Call.bind_apply, hok, Call.pure_apply]⟩
    · exact .inr ⟨m, by simp only [repairMarks, Call.bind_apply, herror]⟩
  | reserved =>
    cases hrefused : refusal .dispatched key with
    | some m =>
      refine ⟨s, r, .inr ⟨m, ?_⟩, (put_same hr).symm, hs⟩
      simp only [repairMarks, Call.bind_apply, OutboxStore.refusing, hrefused]
      rfl
    | none =>
      obtain ⟨s₁, hx₁, hview₁, hs₁⟩ := h.markDispatched_eval hs hr hstate
      have hx : (O.refusing refusal).port.markDispatched key none s = .ok () s₁ := by
        simp only [OutboxStore.refusing, hrefused]
        exact hx₁
      have hr₁ : view s₁ key = some { r with state := .dispatched } := by
        rw [hview₁, Ledger.put_apply, if_pos rfl]
      obtain ⟨s₂, r', hmark, hview₂, hs₂⟩ := h.markUnknownEffect_refusing refusal hs₁ hr₁ rfl
      refine ⟨s₂, r', ?_, ?_, hs₂⟩
      · rcases hmark with hok | ⟨m, herror⟩
        · exact .inl ⟨(.markedUnknownEffect, repairedDetail key .reserved), by
            simp only [repairMarks, Call.bind_apply, hx, hok, Call.pure_apply]⟩
        · exact .inr ⟨m, by simp only [repairMarks, Call.bind_apply, hx, herror]⟩
      · rw [hview₂, hview₁]
        exact Function.update_idem ..

/-- A repair goes through whatever its marks do. -/
theorem repairOrphanedKey_refusing (refusal : Refusal) {s : σ} (hs : Inv s) {key : String}
    {r : DedupeRecord} (hr : view s key = some r) (v : ConsistencyViolation) :
    ∃ done s' r', repairOrphanedKey (O.refusing refusal).port key v s = .ok done s' ∧
      view s' = (view s).put key r' ∧ Inv s' := by
  obtain ⟨s₁, hget, hview₁, hs₁⟩ := h.get_eval hs key
  have hgot : (O.refusing refusal).port.get key s = .ok (view s key) s₁ := hget
  obtain ⟨s₂, r', hmarks, hview₂, hs₂⟩ := h.repairMarks_refusing refusal hs₁ (hview₁ ▸ hr)
  rw [hview₁] at hview₂
  rcases hmarks with ⟨done, hok⟩ | ⟨m, herror⟩
  · refine ⟨done, s₂, r', ?_, hview₂, hs₂⟩
    simp only [repairOrphanedKey, Call.bind_apply, hgot, hr, Call.tryCatch_apply, hok]
  · refine ⟨(.skipped, "DedupeStoreStateError during repair: " ++ m), s₂, r', ?_, hview₂, hs₂⟩
    simp only [repairOrphanedKey, Call.bind_apply, hgot, hr, Call.tryCatch_apply, herror, skipStateError,
      if_true, Call.pure_apply]

theorem repairViolation_refusing (refusal : Refusal) (runId : String) (v : ConsistencyViolation) {s : σ}
    (hs : Inv s) (hpresent : ∀ key ∈ orphans [v], view s key ≠ none) :
    ∃ action s', repairViolation (O.refusing refusal).port runId v s = .ok action s' ∧
      action.idempotencyKey = v.idempotencyKey.getD "" ∧ Inv s' ∧
      (∀ key, view s key ≠ none → view s' key ≠ none) ∧
      ∀ key, ¬ Refused refusal key → view s' key = (orphans [v]).foldl lose (view s) key := by
  by_cases hkind : v.kind = .orphanedDedupeKey ∧ Refused refusal (v.idempotencyKey.getD "")
  · obtain ⟨horphan, hrefused⟩ := hkind
    have horphans : orphans [v] = [v.idempotencyKey.getD ""] := by simp [orphans, horphan]
    rw [horphans] at hpresent ⊢
    obtain ⟨r, hr⟩ := Option.ne_none_iff_exists'.mp (hpresent _ List.mem_cons_self)
    obtain ⟨done, s', r', hrepair, hview, hs'⟩ := h.repairOrphanedKey_refusing refusal hs hr v
    refine ⟨⟨v.idempotencyKey.getD "", .orphanedDedupeKey, done.1, done.2⟩, s', ?_, rfl, hs', ?_, ?_⟩
    · unfold repairViolation
      simp only [horphan, Call.map_apply, hrepair]
    · intro key hkey
      rw [hview, Ledger.put_apply]
      split
      · exact Option.some_ne_none r'
      · exact hkey
    · intro key hfree
      have hne : key ≠ v.idempotencyKey.getD "" := fun heq => hfree (heq ▸ hrefused)
      rw [hview, Ledger.put_apply, if_neg hne, List.foldl_cons, List.foldl_nil, lose_apply, if_neg hne]
  · have hplain : repairViolation (O.refusing refusal).port runId v = repairViolation O.port runId v := by
      by_cases horphan : v.kind = .orphanedDedupeKey
      · exact repairViolation_unrefused runId v (fun hrefused => hkind ⟨horphan, hrefused⟩)
      · unfold repairViolation
        cases hk : v.kind with
        | orphanedDedupeKey => exact absurd hk horphan
        | unknownEffectNoLogEvidence | eventLogUnavailable => rfl
    obtain ⟨action, s', hv, hkey, hview, hs'⟩ := h.repairViolation_eval runId v hs hpresent
    refine ⟨action, s', by rw [hplain]; exact hv, hkey, hs', ?_, fun key _ => by rw [hview]⟩
    intro key hkept
    rw [hview, foldl_lose_apply]
    split
    · exact fun hnone => hkept (Option.map_eq_none_iff.mp hnone)
    · exact hkept

/-- However many marks are refused, every violation is attended to, and the keys that are not
refused fare as they would have. -/
theorem repairAll_refusing (refusal : Refusal) (runId : String) (violations : List ConsistencyViolation)
    {s : σ} (hs : Inv s) (hpresent : ∀ key ∈ orphans violations, view s key ≠ none) :
    ∃ actions s', repairAll (O.refusing refusal).port runId violations s = .ok actions s' ∧
      actions.map ReconciliationAction.idempotencyKey =
        violations.map (fun v => v.idempotencyKey.getD "") ∧
      ∀ key, ¬ Refused refusal key → view s' key = (orphans violations).foldl lose (view s) key := by
  induction violations generalizing s with
  | nil => exact ⟨[], s, rfl, rfl, fun _ _ => rfl⟩
  | cons v rest ih =>
    rw [orphans_cons] at hpresent ⊢
    obtain ⟨action, s₁, hv, hkey, hs₁, hkept, hfree₁⟩ := h.repairViolation_refusing refusal runId v hs
      (fun key hk => hpresent key (List.mem_append_left _ hk))
    obtain ⟨actions, s₂, hrest, hkeys, hfree₂⟩ := ih hs₁
      (fun key hk => hkept key (hpresent key (List.mem_append_right _ hk)))
    refine ⟨action :: actions, s₂, ?_, ?_, ?_⟩
    · simp only [repairAll, Call.bind_apply, hv, hrest, Call.pure_apply]
    · rw [List.map_cons, List.map_cons, hkey, hkeys]
    · intro key hfree
      rw [hfree₂ key hfree, List.foldl_append, foldl_lose_apply, foldl_lose_apply, hfree₁ key hfree]

/-- The pass over a store in which marks are refused. -/
theorem reconcileLoaded_refusing (refusal : Refusal) (events : List RuntimeEvent) (runId : String) {s : σ}
    (hs : Inv s) :
    ∃ result s', reconcileLoaded (O.refusing refusal) runId (.ok events) s = .ok result s' ∧
      result.actions.map ReconciliationAction.idempotencyKey =
        (found (view s) events runId (O.collectDedupeKeys runId s)).map
          (fun v => v.idempotencyKey.getD "") ∧
      ∀ key, ¬ Refused refusal key → view s' key =
        if lists runId key = true ∧ key ∉ eventIdempotencyKeys events then (view s key).map lost
        else view s key := by
  obtain ⟨report, s₁, hverify, hrun, hfound, hview₁, hs₁⟩ := h.verifyLoaded_eval events runId hs
  have hverified : verifyLoaded (O.refusing refusal) runId (.ok events) s = .ok report s₁ := by
    rw [verifyLoaded_refusing]
    exact hverify
  obtain ⟨actions, s₂, hrepair, hkeys, hfree⟩ :=
    h.repairAll_refusing refusal report.runId report.violations hs₁ (by
      intro key hkey
      rw [hfound] at hkey
      rw [hview₁]
      exact (mem_orphans_found_iff.mp hkey).2.1)
  refine ⟨{ runId := report.runId
            actions := actions
            violationsFound := report.violations.length
            violationsRepaired := (actions.filter (fun a => a.actionTaken ≠ .skipped)).length },
    s₂, ?_, ?_, ?_⟩
  · simp only [reconcileLoaded, Call.bind_apply, hverified, applyRepairs, hrepair, Call.pure_apply]
  · rw [← hfound]
    exact hkeys
  · intro key hkey
    rw [hfree key hkey, hview₁, hfound]
    exact h.foldl_lose_found events runId hs key

/-- A pass makes legal moves only, and the ones after it are idle. -/
theorem reconcileLoaded_legal (events : List RuntimeEvent) (runId : String) {s : σ} (hs : Inv s) :
    ∃ first s₁, reconcileLoaded O runId (.ok events) s = .ok first s₁ ∧ LegalMoves (view s) (view s₁) ∧
      LosesOrphans O runId (.ok events) s (view s) (view s₁) ∧ ∃ second s₂, reconcileLoaded O runId (.ok events) s₁ = .ok second s₂ ∧ view s₂ = view s₁ ∧
        ∀ a ∈ second.actions, a.Idle := by
  obtain ⟨first, s₁, hfirst, hs₁, _, hview₁⟩ := h.reconcileLoaded_spec events runId hs
  refine ⟨first, s₁, hfirst, ?_, ?_, ?_⟩
  · intro key
    rw [hview₁]
    split
    · cases hrec : view s key with
      | none => exact .inl rfl
      | some r =>
        rcases lost_cases r with hsame | ⟨hopen, hlost⟩
        · exact .inl (by rw [Option.map_some, hsame])
        · exact .inr ⟨r, rfl, hopen, by rw [Option.map_some, hlost]⟩
    · exact .inl rfl
  · rintro events' key r heq hlisted hevents hr hopen
    cases heq
    rw [hview₁, if_pos ⟨((h.collects _ hs runId key).mp hlisted).2, hevents⟩, hr, Option.map_some]
    rcases hopen with hopen | hopen <;> simp [lost, hopen]
  · -- What the first pass leaves listed and without an event is closed.
    obtain ⟨second, s₂, hsecond, hidle, hview₂⟩ := h.reconcileLoaded_idle events runId hs₁ (by
      intro key hlisted hevents r hr
      rw [hview₁, if_pos ⟨hlisted, hevents⟩] at hr
      obtain ⟨r₀, _, rfl⟩ := Option.map_eq_some_iff.mp hr
      exact closed_lost r₀)
    exact ⟨second, s₂, hsecond, hview₂, hidle⟩

end OutboxStore.Sound

/-- What a process leaves that stops between a reservation and its event. -/
def leftReservation : InMemoryDedupeStore :=
  Dict.empty.set "run:pay" ⟨"run:pay", "pay", 1, .reserved, none, none⟩

/-- **Passes are idempotent and make legal moves only.** Whatever the log gives and the store
holds, a pass at most loses open records, among them every one that is an orphan, and a second
one changes no record and repairs nothing. Marks that raise state errors stop no repair but their own keys'. -/
theorem reconcile_idempotent (B : SoundOutbox) (runId : String)
    (loaded : Except PyError (List RuntimeEvent)) (s : B.State) (hs : B.Inv s) :
    ∃ first s₁, reconcileLoaded B.store runId loaded s = .ok first s₁ ∧
      LegalMoves (B.view s) (B.view s₁) ∧
      LosesOrphans B.store runId loaded s (B.view s) (B.view s₁) ∧
      (∃ second s₂, reconcileLoaded B.store runId loaded s₁ = .ok second s₂ ∧
        B.view s₂ = B.view s₁ ∧ ∀ a ∈ second.actions, a.Idle) ∧
      ∀ refusal : Refusal, ∃ result s', reconcileLoaded (B.store.refusing refusal) runId loaded s =
          .ok result s' ∧
        result.actions.map ReconciliationAction.idempotencyKey =
          first.actions.map ReconciliationAction.idempotencyKey ∧
        ∀ key, ¬ Refused refusal key → B.view s' key = B.view s₁ key := by
  cases loaded with
  | error e =>
    obtain ⟨result, heval, hidle, hkeys⟩ := reconcileLoaded_unavailable B.store e runId s
    refine ⟨result, s, heval, fun _ => .inl rfl, fun _ _ _ hloaded => (by cases hloaded),
      ⟨result, s, heval, rfl, hidle⟩, fun refusal => ?_⟩
    obtain ⟨result', heval', _, hkeys'⟩ :=
      reconcileLoaded_unavailable (B.store.refusing refusal) e runId s
    exact ⟨result', s, heval', hkeys'.trans hkeys.symm, fun _ _ => rfl⟩
  | ok events =>
    obtain ⟨first, s₁, hfirst, hlegal, horphans, hsecond⟩ :=
      B.sound.reconcileLoaded_legal events runId hs
    refine ⟨first, s₁, hfirst, hlegal, horphans, hsecond, fun refusal => ?_⟩
    obtain ⟨first', s₁', hfirst', _, hkeys, hview⟩ := B.sound.reconcileLoaded_spec events runId hs
    rw [hfirst] at hfirst'
    cases hfirst'
    obtain ⟨result, s', heval, hkeys', hfree⟩ :=
      B.sound.reconcileLoaded_refusing refusal events runId hs
    refine ⟨result, s', heval, hkeys'.trans hkeys.symm, fun key hkey => ?_⟩
    rw [hfree key hkey, hview key]

/-- A reservation left by a crash is lost by the first pass, and the second has nothing to do. -/
theorem left_reservation_reconciled :
    ∃ first s₁ second s₂,
      reconcileLoaded InMemoryDedupeStore.outboxStore "run" (.ok []) leftReservation = .ok first s₁ ∧
      LegalMoves leftReservation.view s₁.view ∧
      s₁.view "run:pay" = some ⟨"run:pay", "pay", 1, .unknownEffect, none, none⟩ ∧
      reconcileLoaded InMemoryDedupeStore.outboxStore "run" (.ok []) s₁ = .ok second s₂ ∧
      s₂.view = s₁.view ∧ ∀ a ∈ second.actions, a.Idle := by
  obtain ⟨first, s₁, hfirst, hlegal, horphans, ⟨second, s₂, hsecond, hview, hidle⟩, _⟩ :=
    reconcile_idempotent InMemoryDedupeStore.outbox "run" (.ok []) leftReservation trivial
  have hlost := horphans [] "run:pay" _ rfl (by decide +kernel) List.not_mem_nil rfl (.inl rfl)
  exact ⟨first, s₁, second, s₂, hfirst, hlegal, hlost, hsecond, hview, hidle⟩

end AgentKernel.Reconcile
