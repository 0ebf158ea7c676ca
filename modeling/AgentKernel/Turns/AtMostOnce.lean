import AgentKernel.Turns.Ownership

/-! At-most-once dispatch.

However the turns of any number of engines interleave over one healthy store, and
whatever their ports do, the executor is invoked at most once for each policy key
and at most once for each legacy key, and never before the same turn was admitted
and had its policy key reserved (`executor_invoked_at_most_once`). -/
namespace AgentKernel.Turns
open Lib Dedupe

/-- A key of the candidate the executor was invoked for. -/
def invokedKey (key : Candidate → String) (o : Observation) : Option String :=
  match o.what with
  | .execute c _ => some (key c)
  | _ => none

theorem invokedKey_eq_some {key : Candidate → String} {o : Observation} {k : String}
    (h : invokedKey key o = some k) : ∃ c call, o.what = .execute c call ∧ key c = k := by
  obtain ⟨i, what⟩ := o
  cases what with
  | execute c call => exact ⟨c, call, rfl, Option.some.inj h⟩
  | _ => cases h

/-- If the entry is an invocation, the same turn was admitted before it and had the
reservation of its policy key accepted. -/
def Cleared (H : Digest) (o : Observation) (before : List Observation) : Prop :=
  ∀ c call, o.what = .execute c call →
    (∃ r, isAdmitted r = .ok true ∧ ⟨o.who, .admission r⟩ ∈ before) ∧
      ⟨o.who, .reservation (c.policyKey H) true⟩ ∈ before

section
variable {S : HealthyStore} {H : Digest} {s s' : System S.State}

/-- Two invocations are of different turns, and so under different keys. -/
theorem Owned.invoked_nodup (h : Owned S H s) {key : Candidate → String}
    (hkey : ∀ c c', Apart H c c' → key c ≠ key c') :
    (s.trace.filterMap (invokedKey key)).Nodup := by
  have honce : ∀ i, (historyOf i s.trace).Pairwise
      (fun a b => ∀ c call c' call', a = .execute c call → b ≠ .execute c' call') := by
    intro i
    cases hi : s.turns[i]? with
    | some t => exact (h.recorded i t hi).execute_once
    | none =>
      rw [h.within i hi]
      exact List.Pairwise.nil
  have hdispatched : ∀ i c call, ⟨i, .execute c call⟩ ∈ s.trace → ⟨i, .dispatched c⟩ ∈ s.trace := by
    intro i c call hmem
    cases hi : s.turns[i]? with
    | some t =>
      exact mem_historyOf.mp ((h.recorded i t hi).dispatched_of_execute (mem_historyOf.mpr hmem))
    | none =>
      have hhistory := mem_historyOf.mpr hmem
      rw [h.within i hi] at hhistory
      cases hhistory
  refine List.pairwise_filterMap.mpr ((pairwise_of_histories honce).imp_of_mem ?_)
  intro o o' ha hb hsame k hk k' hk'
  obtain ⟨i, a⟩ := o
  obtain ⟨j, b⟩ := o'
  obtain ⟨c, call, rfl, rfl⟩ := invokedKey_eq_some hk
  obtain ⟨c', call', rfl, rfl⟩ := invokedKey_eq_some hk'
  by_cases hij : i = j
  · exact absurd rfl (hsame hij c call c' call' rfl)
  · exact hkey c c' (h.apart i j c c' (hdispatched i c call ha) (hdispatched j c' call' hb) hij)

/-- The executor is invoked by a turn that has just left the dedupe phase. -/
theorem Effect.invoked_from {L L' : Ledger} {p p' : Progress} {new : List Happening}
    (h : Effect H L p new p' L') {c : Candidate} {call : ExecutorCall}
    (hc : .execute c call ∈ new) : ∃ d, p = .execute d ∧ d.candidate = c := by
  cases h with
  | invoked =>
    simp only [List.mem_singleton, Happening.execute.injEq] at hc
    exact ⟨_, rfl, hc.1.symm⟩
  | _ => simp at hc

theorem Owned.cleared_step (h : Owned S H s) {i : Nat} {t : Turn} {m : Move}
    (hstep : Stepped S H s s' i t m) (hs : Preceded (Cleared H) s.trace) :
    Preceded (Cleared H) s'.trace := by
  rw [hstep.trace]
  refine hs.append (fun pre o post hnew c call hwhat => ?_)
  have hmem : o ∈ tagged i m.happened := by
    rw [hnew]
    exact List.mem_append_right _ List.mem_cons_self
  obtain ⟨hwho, hhappened⟩ := who_of_mem_tagged hmem
  rw [hwhat] at hhappened
  obtain ⟨d, hp, rfl⟩ := hstep.effect.invoked_from hhappened
  have hrecorded := h.recorded i t hstep.turn
  rw [hp] at hrecorded
  have hold : ∀ a, a ∈ historyOf i s.trace → ⟨o.who, a⟩ ∈ s.trace ++ pre := by
    intro a ha
    rw [hwho]
    exact List.mem_append_left _ (mem_historyOf.mp ha)
  generalize historyOf i s.trace = history at hrecorded hold
  cases hrecorded with
  | early hearly => cases hearly
  | execute hadmitted =>
    exact ⟨⟨_, hadmitted, hold _ (by simp [takenHistory])⟩, hold _ (by simp [takenHistory])⟩

theorem interleaved_cleared (S : HealthyStore) (H : Digest) (store : S.State)
    (calls : List TurnCall) (labels : List Label) :
    Preceded (Cleared H) (interleaved S.port H store calls labels).trace :=
  interleaved_invariant (P := fun s => Preceded (Cleared H) s.trace) (preceded_nil _)
    (fun _ _ _ _ _ howned hstep hs => howned.cleared_step hstep hs) labels

end

/-- **The executor is invoked at most once per policy key and at most once per legacy
key, and only after the turn was admitted and its policy key reserved**, in every
interleaving of any turns over a healthy store. -/
theorem executor_invoked_at_most_once (S : HealthyStore) (H : Digest) (store : S.State)
    (calls : List TurnCall) (labels : List Label) :
    let trace := (interleaved S.port H store calls labels).trace
    (trace.filterMap (invokedKey (Candidate.policyKey H))).Nodup ∧
      (trace.filterMap (invokedKey Candidate.legacyKey)).Nodup ∧
      Preceded (Cleared H) trace := by
  have howned := interleaved_owned S H store calls labels
  refine ⟨?_, ?_, interleaved_cleared S H store calls labels⟩
  · exact howned.invoked_nodup (fun _ _ h => h.policy)
  · exact howned.invoked_nodup (fun _ _ h => h.legacy)

end AgentKernel.Turns
