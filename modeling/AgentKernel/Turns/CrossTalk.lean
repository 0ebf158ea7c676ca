import AgentKernel.Turns.Ownership

/-! Which dispatches can suppress a turn.

Over a store that starts empty, a turn is only blocked as a duplicate when an earlier
dispatch shares one of its keys. Sharing a key means repeating the dispatch, or being
confused with it: the keys join run and action with a colon, so two turns of
different runs or actions can have the same text before the last colon
(`shares_key_iff`). A run without such a pair has no cross-talk
(`duplicates_justified`); a run with one can drop a dispatch
(`colliding_runs_cross_talk`). -/
namespace AgentKernel.Turns
open Lib Dedupe

namespace Candidate

def contentHash (H : Digest) (c : Candidate) : String :=
  IdempotencyKeyPolicy.contentHash H c.action c.snapshot.snapshotHash

def runAction (c : Candidate) : String := Turns.runAction c.input.runId c.action.actionId

end Candidate

/-- The second candidate is a dispatch of the same action of the same run, at the same
offset or with the same content. -/
structure Repeats (H : Digest) (c c' : Candidate) : Prop where
  run : c'.input.runId = c.input.runId
  action : c'.action.actionId = c.action.actionId
  content : c'.input.basedOnOffset = c.input.basedOnOffset ∨ c'.contentHash H = c.contentHash H

/-- Two candidates of different runs or actions whose keys do not tell them apart: the
texts before the last colon agree, up to the namespace of the policy key, and so do
the last parts. -/
def Confusable (H : Digest) (c c' : Candidate) : Prop :=
  ¬ (c'.input.runId = c.input.runId ∧ c'.action.actionId = c.action.actionId) ∧
    (c.runAction = c'.runAction ∧
        (c'.input.basedOnOffset = c.input.basedOnOffset ∨ c'.contentHash H = c.contentHash H) ∨
      c.runAction = "dispatch:" ++ c'.runAction ∧
        toString c.input.basedOnOffset = c'.contentHash H ∨
      c'.runAction = "dispatch:" ++ c.runAction ∧
        toString c'.input.basedOnOffset = c.contentHash H)

/-- **Two candidates share a key exactly when one repeats the other or the two are
confusable.** -/
theorem shares_key_iff {H : Digest} {c c' : Candidate} :
    ¬ Apart H c c' ↔ Repeats H c c' ∨ Confusable H c c' := by
  have hkeys : ¬ Apart H c c' ↔
      (c.policyKey H = c'.policyKey H ∨ c.legacyKey = c'.legacyKey) ∨
        c.legacyKey = c'.policyKey H ∨ c'.legacyKey = c.policyKey H := by
    constructor
    · intro h
      by_contra hne
      obtain ⟨hown, hmixed⟩ := not_or.mp hne
      obtain ⟨hpolicy, hlegacy⟩ := not_or.mp hown
      obtain ⟨hlegacyPolicy, hpolicyLegacy⟩ := not_or.mp hmixed
      exact h ⟨hpolicy, hlegacy, Ne.symm hpolicyLegacy, hlegacyPolicy⟩
    · intro hshared hapart
      obtain ⟨hp, hl, hpl, hlp⟩ := hapart
      rcases hshared with (h | h) | h | h
      · exact hp h
      · exact hl h
      · exact hlp h
      · exact hpl h.symm
  have hpolicy : c.policyKey H = c'.policyKey H ↔
      c.runAction = c'.runAction ∧ c.contentHash H = c'.contentHash H := generate_eq_generate_iff
  have hlegacy : c.legacyKey = c'.legacyKey ↔
      c.runAction = c'.runAction ∧ c.input.basedOnOffset = c'.input.basedOnOffset :=
    legacy_eq_legacy_iff
  have hmixed : ∀ a b : Candidate, a.legacyKey = b.policyKey H ↔
      a.runAction = "dispatch:" ++ b.runAction ∧
        toString a.input.basedOnOffset = b.contentHash H := fun _ _ => legacy_eq_generate_iff
  rw [hkeys, hpolicy, hlegacy, hmixed, hmixed]
  by_cases hsame : c'.input.runId = c.input.runId ∧ c'.action.actionId = c.action.actionId
  · have htext : c.runAction = c'.runAction := by
      simp only [Candidate.runAction, hsame.1, hsame.2]
    constructor
    · intro hshared
      rcases hshared with (⟨-, h⟩ | ⟨-, h⟩) | ⟨h, -⟩ | ⟨h, -⟩
      · exact .inl ⟨hsame.1, hsame.2, .inr h.symm⟩
      · exact .inl ⟨hsame.1, hsame.2, .inl h.symm⟩
      · rw [htext] at h
        exact absurd h (ne_dispatch_append _)
      · rw [htext] at h
        exact absurd h (ne_dispatch_append _)
    · intro hkinds
      rcases hkinds with ⟨-, -, h | h⟩ | ⟨hne, -⟩
      · exact .inl (.inr ⟨htext, h.symm⟩)
      · exact .inl (.inl ⟨htext, h.symm⟩)
      · exact absurd hsame hne
  · constructor
    · intro hshared
      rcases hshared with (⟨htext, h⟩ | ⟨htext, h⟩) | h | h
      · exact .inr ⟨hsame, .inl ⟨htext, .inr h.symm⟩⟩
      · exact .inr ⟨hsame, .inl ⟨htext, .inl h.symm⟩⟩
      · exact .inr ⟨hsame, .inr (.inl h)⟩
      · exact .inr ⟨hsame, .inr (.inr h)⟩
    · intro hkinds
      rcases hkinds with ⟨hrun, haction, -⟩ | ⟨-, ⟨htext, h | h⟩ | h | h⟩
      · exact absurd ⟨hrun, haction⟩ hsame
      · exact .inl (.inr ⟨htext, h.symm⟩)
      · exact .inl (.inl ⟨htext, h.symm⟩)
      · exact .inr (.inl h)
      · exact .inr (.inr h)

/-! ### Where keys come from -/

section
variable {H : Digest} {L L' : Ledger} {p p' : Progress} {new : List Happening}

/-- A key enters the ledger with the turn that is dispatched under it. -/
theorem Effect.provenance (h : Effect H L p new p' L') (hr : p.Ready H L) {key : String}
    (hkey : L' key ≠ none) :
    L key ≠ none ∨ ∃ c, .dispatched c ∈ new ∧ (key = c.policyKey H ∨ key = c.legacyKey) := by
  cases h with
  | @accepted c _ _ _ rec rec' _ _ _ _ _ _ =>
    by_cases hp : key = c.policyKey H
    · exact .inr ⟨c, by simp, .inl hp⟩
    · by_cases hl : key = c.legacyKey
      · exact .inr ⟨c, by simp, .inr hl⟩
      · rw [putBoth_other hp hl] at hkey
        exact .inl hkey
  | @closed d _ _ _ rec rec' _ _ _ _ _ =>
    by_cases hp : key = d.candidate.policyKey H
    · rw [hp]
      exact .inl hr.policy.present
    · by_cases hl : key = d.candidate.legacyKey
      · rw [hl]
        exact .inl hr.legacy.present
      · rw [putBoth_other hp hl] at hkey
        exact .inl hkey
  | _ => exact .inl hkey

/-- A turn is blocked in the dedupe phase when one of its keys is known. -/
theorem Effect.duplicate (h : Effect H L p new p' L') {c : Candidate}
    (hc : .duplicate c ∈ new) :
    (∃ r policy, p = .dedupe c r policy) ∧ (L (c.policyKey H) ≠ none ∨ L c.legacyKey ≠ none) := by
  cases h with
  | knownLegacy hlegacy =>
    obtain rfl : c = _ := by simpa using hc
    exact ⟨⟨_, _, rfl⟩, .inr hlegacy⟩
  | knownPolicy hpolicy =>
    obtain rfl : c = _ := by simpa using hc
    exact ⟨⟨_, _, rfl⟩, .inl hpolicy⟩
  | _ => simp at hc

/-- A turn before the dedupe phase was not dispatched. -/
theorem Recorded.undispatched {history : List Happening} {c : Candidate} {r : AdmissionValue}
    {policy : DispatchPolicy} (hr : Recorded H (.dedupe c r policy) history) (c' : Candidate) :
    .dispatched c' ∉ history := by
  cases hr with
  | early hearly => cases hearly
  | dedupe _ => simp

end

section
variable {S : HealthyStore} {H : Digest} {s s' : System S.State}

/-- Every key in the ledger is a key of a dispatched turn. -/
def Sourced (S : HealthyStore) (H : Digest) (s : System S.State) : Prop :=
  ∀ key, S.view s.store key ≠ none →
    ∃ i c, ⟨i, .dispatched c⟩ ∈ s.trace ∧ (key = c.policyKey H ∨ key = c.legacyKey)

/-- If the entry is a turn blocked as a duplicate, another turn that shares one of its
keys was dispatched before. -/
def Explained (H : Digest) (o : Observation) (before : List Observation) : Prop :=
  ∀ c, o.what = .duplicate c →
    ∃ i c', ⟨i, .dispatched c'⟩ ∈ before ∧ i ≠ o.who ∧ ¬ Apart H c c'

theorem Owned.sourced_step (h : Owned S H s) {i : Nat} {t : Turn} {m : Move}
    (hstep : Stepped S H s s' i t m) (hs : Sourced S H s) : Sourced S H s' := by
  intro key hkey
  rcases hstep.effect.provenance (h.ready i t hstep.turn) hkey with hold | ⟨c, hc, hkeys⟩
  · obtain ⟨j, c, hc, hkeys⟩ := hs key hold
    exact ⟨j, c, hstep.mem_trace.mpr (.inl hc), hkeys⟩
  · exact ⟨i, c, hstep.mem_trace.mpr (.inr ⟨rfl, hc⟩), hkeys⟩

theorem Owned.explained_step (h : Owned S H s) {i : Nat} {t : Turn} {m : Move}
    (hstep : Stepped S H s s' i t m) (hsource : Sourced S H s)
    (hs : Preceded (Explained H) s.trace) : Preceded (Explained H) s'.trace := by
  rw [hstep.trace]
  refine hs.append (fun pre o post hnew c hwhat => ?_)
  have hmem : o ∈ tagged i m.happened := by
    rw [hnew]
    exact List.mem_append_right _ List.mem_cons_self
  obtain ⟨hwho, hhappened⟩ := who_of_mem_tagged hmem
  rw [hwhat] at hhappened
  obtain ⟨⟨r, policy, hp⟩, hknown⟩ := hstep.effect.duplicate hhappened
  have hrecorded := h.recorded i t hstep.turn
  rw [hp] at hrecorded
  have hundispatched : ∀ c', ⟨i, .dispatched c'⟩ ∉ s.trace :=
    fun c' hc' => hrecorded.undispatched c' (mem_historyOf.mpr hc')
  have hshared : ∃ j c', ⟨j, .dispatched c'⟩ ∈ s.trace ∧ ¬ Apart H c c' := by
    rcases hknown with hknown | hknown
    · obtain ⟨j, c', hc', hkey | hkey⟩ := hsource _ hknown
      · exact ⟨j, c', hc', fun hapart => hapart.policy hkey⟩
      · exact ⟨j, c', hc', fun hapart => hapart.policyLegacy hkey⟩
    · obtain ⟨j, c', hc', hkey | hkey⟩ := hsource _ hknown
      · exact ⟨j, c', hc', fun hapart => hapart.legacyPolicy hkey⟩
      · exact ⟨j, c', hc', fun hapart => hapart.legacy hkey⟩
  obtain ⟨j, c', hc', hapart⟩ := hshared
  refine ⟨j, c', List.mem_append_left _ hc', ?_, hapart⟩
  rw [hwho]
  intro hsame
  obtain rfl := hsame
  exact hundispatched c' hc'

theorem interleaved_explained (S : HealthyStore) (H : Digest) (store : S.State)
    (hempty : ∀ key, S.view store key = none) (calls : List TurnCall) (labels : List Label) :
    Preceded (Explained H) (interleaved S.port H store calls labels).trace := by
  have hinvariant : Sourced S H (interleaved S.port H store calls labels) ∧
      Preceded (Explained H) (interleaved S.port H store calls labels).trace := by
    refine interleaved_invariant (P := fun s => Sourced S H s ∧ Preceded (Explained H) s.trace)
      ⟨fun key hkey => absurd (hempty key) hkey, preceded_nil _⟩ ?_ labels
    intro s s' i t m howned hstep hboth
    obtain ⟨hsource, hs⟩ := hboth
    exact ⟨howned.sourced_step hstep hsource, howned.explained_step hstep hsource hs⟩
  exact hinvariant.2

end

/-! ### Sequences of turns -/

section
variable {σ : Type} {S : DedupeStorePort σ} {H : Digest}

/-- The turns run one after the other. -/
def InOrder (labels : List Label) : Prop := labels.Pairwise (fun l l' => l.turn ≤ l'.turn)

/-- Turns that run one after the other are observed in their order. -/
theorem trace_inOrder {labels : List Label} (hlabels : InOrder labels) {s : System σ}
    (hs : s.trace.Pairwise (fun a b => a.who ≤ b.who))
    (hbefore : ∀ o ∈ s.trace, ∀ l ∈ labels, o.who ≤ l.turn) :
    (run (System.step S H) s labels).trace.Pairwise (fun a b => a.who ≤ b.who) := by
  induction labels generalizing s with
  | nil => exact hs
  | cons l rest ih =>
    obtain ⟨hl, hrest⟩ := List.pairwise_cons.mp hlabels
    obtain ⟨new, hnew⟩ := step_trace (S := S) (H := H) s l
    refine ih hrest ?_ ?_
    · rw [hnew]
      refine List.pairwise_append.mpr ⟨hs, ?_, ?_⟩
      · refine List.pairwise_of_forall_mem_list (fun a ha b hb => ?_)
        rw [(who_of_mem_tagged ha).1, (who_of_mem_tagged hb).1]
      · intro a ha b hb
        rw [(who_of_mem_tagged hb).1]
        exact hbefore a ha l List.mem_cons_self
    · intro o ho l' hl'
      rw [hnew] at ho
      rcases List.mem_append.mp ho with ho | ho
      · exact hbefore o ho l' (List.mem_cons_of_mem l hl')
      · rw [(who_of_mem_tagged ho).1]
        exact hl l' hl'

end

/-! ### No cross-talk -/

/-- If the entry is a turn blocked as a duplicate, a turn it repeats was dispatched
before; `R` compares the two turns. -/
def Justified (H : Digest) (R : Nat → Nat → Prop) (o : Observation) (before : List Observation) :
    Prop :=
  ∀ c, o.what = .duplicate c →
    ∃ i c', ⟨i, .dispatched c'⟩ ∈ before ∧ R i o.who ∧ Repeats H c c'

/-- The candidates that reached the dedupe phase. -/
def candidates (trace : List Observation) : List Candidate :=
  trace.filterMap (fun o => match o.what with
    | .duplicate c | .dispatched c => some c
    | _ => none)

theorem mem_candidates {trace : List Observation} {i : Nat} {c : Candidate}
    (h : ⟨i, .duplicate c⟩ ∈ trace ∨ ⟨i, .dispatched c⟩ ∈ trace) : c ∈ candidates trace := by
  rcases h with h | h
  · exact List.mem_filterMap.mpr ⟨_, h, rfl⟩
  · exact List.mem_filterMap.mpr ⟨_, h, rfl⟩

/-- **A turn is only suppressed by a dispatch it repeats**, in every interleaving over
an empty in-memory store whose candidates are not confusable. When the turns run one
after the other, that dispatch is of an earlier turn. -/
theorem duplicates_justified (H : Digest) (calls : List TurnCall) (labels : List Label)
    (hclear : ∀ c ∈ candidates
        (interleaved InMemoryDedupeStore.healthy.port H Dict.empty calls labels).trace,
      ∀ c' ∈ candidates
        (interleaved InMemoryDedupeStore.healthy.port H Dict.empty calls labels).trace,
      ¬ Confusable H c c') :
    Preceded (Justified H (· ≠ ·))
        (interleaved InMemoryDedupeStore.healthy.port H Dict.empty calls labels).trace ∧
      (InOrder labels → Preceded (Justified H (· < ·))
        (interleaved InMemoryDedupeStore.healthy.port H Dict.empty calls labels).trace) := by
  have hexplained := interleaved_explained InMemoryDedupeStore.healthy H Dict.empty
    (fun _ => rfl) calls labels
  have horder : InOrder labels →
      (interleaved InMemoryDedupeStore.healthy.port H Dict.empty calls labels).trace.Pairwise
        (fun a b => a.who ≤ b.who) := fun hlabels =>
    trace_inOrder hlabels List.Pairwise.nil (fun _ ho => by cases ho)
  generalize (interleaved InMemoryDedupeStore.healthy.port H Dict.empty calls labels).trace =
    trace at hclear hexplained horder ⊢
  have hjustified : Preceded (Justified H (· ≠ ·)) trace := by
    intro pre o post htrace c hwhat
    obtain ⟨i, c', hc', hne, hshared⟩ := hexplained pre o post htrace c hwhat
    refine ⟨i, c', hc', hne, ?_⟩
    have ho : (⟨o.who, .duplicate c⟩ : Observation) ∈ trace := by
      rw [htrace, ← hwhat]
      exact List.mem_append_right _ List.mem_cons_self
    have hi : (⟨i, .dispatched c'⟩ : Observation) ∈ trace := by
      rw [htrace]
      exact List.mem_append_left _ hc'
    rcases shares_key_iff.mp hshared with hrepeats | hconfusable
    · exact hrepeats
    · exact absurd hconfusable (hclear c (mem_candidates (.inl ho)) c' (mem_candidates (.inr hi)))
  refine ⟨hjustified, fun hlabels pre o post htrace c hwhat => ?_⟩
  obtain ⟨i, c', hc', hne, hrepeats⟩ := hjustified pre o post htrace c hwhat
  refine ⟨i, c', hc', ?_, hrepeats⟩
  have hsorted := horder hlabels
  rw [htrace] at hsorted
  exact Nat.lt_of_le_of_ne
    ((List.pairwise_append.mp hsorted).2.2 _ hc' o List.mem_cons_self) hne

/-- Two sample turns, one after the other, on an empty in-memory store. -/
def samplePair (first second : TurnCall) : System InMemoryDedupeStore.healthy.State :=
  interleaved InMemoryDedupeStore.healthy.port Sample.digest Dict.empty [first, second]
    (Sample.wholeTurn 0 Sample.acknowledged ++ Sample.wholeTurn 1 Sample.acknowledged)

/-- The second turn of the same action of the same run is blocked, and justly so. -/
theorem repeated_turn_justified :
    (∃ c, ⟨1, .duplicate c⟩ ∈
      (samplePair (Sample.call {} "run" "act") (Sample.call {} "run" "act")).trace) ∧
    Preceded (Justified Sample.digest (· ≠ ·))
      (samplePair (Sample.call {} "run" "act") (Sample.call {} "run" "act")).trace := by
  refine ⟨⟨_, List.mem_of_getElem? (i := 7) rfl⟩, ?_⟩
  refine (duplicates_justified Sample.digest
    [Sample.call {} "run" "act", Sample.call {} "run" "act"]
    (Sample.wholeTurn 0 Sample.acknowledged ++ Sample.wholeTurn 1 Sample.acknowledged) ?_).1
  have hsame : ((candidates
      (samplePair (Sample.call {} "run" "act") (Sample.call {} "run" "act")).trace).all
        (fun c => c.input.runId = "run" ∧ c.action.actionId = "act")) = true := rfl
  have hof : ∀ c ∈ candidates
      (samplePair (Sample.call {} "run" "act") (Sample.call {} "run" "act")).trace,
      c.input.runId = "run" ∧ c.action.actionId = "act" := by
    intro c hc
    exact of_decide_eq_true (List.all_eq_true.mp hsame c hc)
  intro c hc c' hc' hconfusable
  obtain ⟨hrun, haction⟩ := hof c hc
  obtain ⟨hrun', haction'⟩ := hof c' hc'
  exact hconfusable.1 ⟨hrun'.trans hrun.symm, haction'.trans haction.symm⟩

/-- Run `a` dispatches action `b:c`; then action `c` of run `a:b`, at the same offset,
is blocked, though no turn of that run was ever dispatched. -/
theorem colliding_runs_cross_talk :
    ¬ Preceded (Justified Sample.digest (· ≠ ·))
      (samplePair (Sample.call {} "a" "b:c") (Sample.call {} "a:b" "c")).trace := by
  intro h
  obtain ⟨i, c', hc', -, hrepeats⟩ := h
    ((samplePair (Sample.call {} "a" "b:c") (Sample.call {} "a:b" "c")).trace.take 7) _ [] rfl _ rfl
  have hfirst : ((candidates ((samplePair (Sample.call {} "a" "b:c")
      (Sample.call {} "a:b" "c")).trace.take 7)).all (fun c => c.input.runId ≠ "a:b")) = true := rfl
  exact of_decide_eq_true (List.all_eq_true.mp hfirst c' (mem_candidates (.inr hc'))) hrepeats.run

end AgentKernel.Turns
