import AgentKernel.Turns.Effects

/-! Which turn owns which key.

`Recorded` ties where a turn stands to what it has done so far. `Owned` is the
invariant of the whole system: every turn is recorded, the keys of every dispatched
turn are in the ledger, no two dispatched turns share one of their keys, and a turn
past the dedupe phase still holds both of its own. Every interleaving keeps it
(`interleaved_owned`). -/
namespace AgentKernel.Turns
open Lib Dedupe

/-! ### Histories -/

/-- What an admitted turn has done when it leaves the dedupe phase. -/
def takenHistory (H : Digest) (r : AdmissionValue) (c : Candidate) : List Happening :=
  [.admission r, .reservation (c.policyKey H) true, .reservation c.legacyKey true, .dispatched c]

/-- What a turn can have done when it ends. -/
inductive Ended (H : Digest) : List Happening → Prop where
  | early : Ended H []
  | unadmitted (r : AdmissionValue) : Ended H [.admission r]
  | knownLegacy (r : AdmissionValue) (c : Candidate) : Ended H [.admission r, .duplicate c]
  | knownPolicy (r : AdmissionValue) (c : Candidate) :
    Ended H [.admission r, .reservation (c.policyKey H) false, .duplicate c]
  | executed {r : AdmissionValue} (c : Candidate) (call : ExecutorCall)
      (a : Awaited ExecuteResult) : isAdmitted r = .ok true →
    Ended H (takenHistory H r c ++ [.execute c call, .executed c a])

/-- What a turn has done, by where it stands. -/
inductive Recorded (H : Digest) : Progress → List Happening → Prop where
  | early {p : Progress} : p.early = true → Recorded H p []
  | dispatchPolicy {c : Candidate} {r : AdmissionValue} : isAdmitted r = .ok true →
    Recorded H (.dispatchPolicy c r) [.admission r]
  | dedupe {c : Candidate} {r : AdmissionValue} {policy : DispatchPolicy} :
    isAdmitted r = .ok true → Recorded H (.dedupe c r policy) [.admission r]
  | execute {d : Dispatch} {r : AdmissionValue} : isAdmitted r = .ok true →
    Recorded H (.execute d) (takenHistory H r d.candidate)
  | executing {d : Dispatch} {r : AdmissionValue} {call : ExecutorCall} : isAdmitted r = .ok true →
    Recorded H (.executing d call) (takenHistory H r d.candidate ++ [.execute d.candidate call])
  | finished {o : TurnOutcome} {history : List Happening} : Ended H history →
    Recorded H (.finished o) history

section
variable {H : Digest} {L L' : Ledger} {p p' : Progress} {history new : List Happening}

/-- A step is added to the record. -/
theorem Effect.recorded (h : Effect H L p new p' L') (hr : Recorded H p history) :
    Recorded H p' (history ++ new) := by
  cases h with
  | early hp hp' =>
    have hnil : history = [] := by
      cases hr with
      | early _ => rfl
      | _ => cases hp
    rw [hnil]
    rcases hp' with hp' | ⟨o, rfl⟩
    · exact .early hp'
    · exact .finished .early
  | admitted hadmitted => cases hr; exact .dispatchPolicy hadmitted
  | unadmitted => cases hr; exact .finished (.unadmitted _)
  | allowed =>
    cases hr with
    | early hp => cases hp
    | dispatchPolicy hadmitted => exact .dedupe hadmitted
  | blocked =>
    cases hr with
    | early hp => cases hp
    | dispatchPolicy _ => exact .finished (.unadmitted _)
  | knownLegacy _ =>
    cases hr with
    | early hp => cases hp
    | dedupe _ => exact .finished (.knownLegacy _ _)
  | knownPolicy _ =>
    cases hr with
    | early hp => cases hp
    | dedupe _ => exact .finished (.knownPolicy _ _)
  | accepted hd =>
    cases hr with
    | early hp => cases hp
    | dedupe hadmitted => subst hd; exact .execute hadmitted
  | invoked =>
    cases hr with
    | early hp => cases hp
    | execute hadmitted => exact .executing hadmitted
  | closed _ _ _ _ =>
    cases hr with
    | early hp => cases hp
    | executing hadmitted => exact .finished (.executed _ _ _ hadmitted)
  | abandoned _ =>
    cases hr with
    | early hp => cases hp
    | executing hadmitted => exact .finished (.executed _ _ _ hadmitted)
  | waiting => rw [List.append_nil]; exact hr

/-- The executor is only invoked for what was dispatched. -/
theorem Recorded.dispatched_of_execute (hr : Recorded H p history) {c : Candidate}
    {call : ExecutorCall} (h : .execute c call ∈ history) : .dispatched c ∈ history := by
  cases hr with
  | finished hended => cases hended <;> simp_all [takenHistory]
  | _ => simp_all [takenHistory]

/-- The executor is invoked once at most. -/
theorem Recorded.execute_once (hr : Recorded H p history) :
    history.Pairwise (fun a b => ∀ c call c' call', a = .execute c call → b ≠ .execute c' call') := by
  cases hr with
  | finished hended => cases hended <;> simp [takenHistory]
  | _ => simp [takenHistory]

/-- A turn past the dedupe phase was dispatched. -/
theorem Recorded.dispatched_of_held (hr : Recorded H p history) {d : Dispatch}
    (hp : p = .execute d ∨ ∃ call, p = .executing d call) :
    .dispatched d.candidate ∈ history := by
  rcases hp with rfl | ⟨call, rfl⟩
  · cases hr with
    | early hp => cases hp
    | execute _ => simp [takenHistory]
  · cases hr with
    | early hp => cases hp
    | executing _ => simp [takenHistory]

/-! ### The ledger across a step -/

/-- Keys stay in the ledger. -/
theorem Effect.present (h : Effect H L p new p' L') {key : String} (hkey : L key ≠ none) :
    L' key ≠ none := by
  cases h with
  | accepted _ _ _ _ _ _ => exact putBoth_present hkey _ _ _ _
  | closed _ _ _ _ => exact putBoth_present hkey _ _ _ _
  | _ => exact hkey

/-- A step only writes its own two keys, and takes them only when they are free. -/
theorem Effect.frame (h : Effect H L p new p' L') {key : String} (hkey : L key ≠ none)
    (hother : ∀ d call, p = .executing d call →
      key ≠ d.candidate.policyKey H ∧ key ≠ d.candidate.legacyKey) :
    L' key = L key := by
  cases h with
  | accepted _ _ hpolicy hlegacy _ _ =>
    refine putBoth_other ?_ ?_ _ _ _
    · intro he
      exact hkey (he ▸ hpolicy)
    · intro he
      exact hkey (he ▸ hlegacy)
  | closed _ _ _ _ =>
    obtain ⟨hp, hl⟩ := hother _ _ rfl
    exact putBoth_other hp hl _ _ _
  | _ => rfl

/-- A turn is dispatched under keys that were free, and then are not. -/
theorem Effect.dispatched (h : Effect H L p new p' L') {c : Candidate}
    (hc : .dispatched c ∈ new) :
    (L (c.policyKey H) = none ∧ L c.legacyKey = none) ∧
      (L' (c.policyKey H) ≠ none ∧ L' c.legacyKey ≠ none) := by
  cases h with
  | accepted hd _ hpolicy hlegacy _ _ =>
    obtain rfl : c = _ := by simpa using hc
    refine ⟨⟨hpolicy, hlegacy⟩, ?_, ?_⟩
    · rw [putBoth_policyKey]
      exact Option.some_ne_none _
    · rw [putBoth_legacyKey]
      exact Option.some_ne_none _
  | _ => simp at hc

/-- The turn that took the step holds its keys if it is past the dedupe phase. -/
theorem Effect.ready (h : Effect H L p new p' L') (hr : p.Ready H L) : p'.Ready H L' := by
  cases h with
  | early _ hp' =>
    rcases hp' with hp' | ⟨o, rfl⟩
    · cases p' <;> first | exact trivial | cases hp'
    · exact trivial
  | accepted hd htracked _ _ hrec hrec' =>
    subst hd
    exact ⟨htracked, ⟨_, putBoth_policyKey _ _ _ _ _, hrec⟩, ⟨_, putBoth_legacyKey _ _ _ _ _, hrec'⟩⟩
  | invoked => exact hr
  | waiting => exact hr
  | _ => exact trivial

end

/-! ### The system -/

/-- No key of one candidate is a key of the other. -/
structure Apart (H : Digest) (c c' : Candidate) : Prop where
  policy : c.policyKey H ≠ c'.policyKey H
  legacy : c.legacyKey ≠ c'.legacyKey
  policyLegacy : c.policyKey H ≠ c'.legacyKey
  legacyPolicy : c.legacyKey ≠ c'.policyKey H

theorem Apart.symm {H : Digest} {c c' : Candidate} (h : Apart H c c') : Apart H c' c :=
  ⟨h.policy.symm, h.legacy.symm, h.legacyPolicy.symm, h.policyLegacy.symm⟩

structure Owned (S : HealthyStore) (H : Digest) (s : System S.State) : Prop where
  recorded : ∀ (i : Nat) (t : Turn), s.turns[i]? = some t → Recorded H t.progress (historyOf i s.trace)
  within : ∀ i : Nat, s.turns[i]? = none → historyOf i s.trace = []
  held : ∀ i c, ⟨i, .dispatched c⟩ ∈ s.trace →
    S.view s.store (c.policyKey H) ≠ none ∧ S.view s.store c.legacyKey ≠ none
  apart : ∀ i j c c', ⟨i, .dispatched c⟩ ∈ s.trace → ⟨j, .dispatched c'⟩ ∈ s.trace → i ≠ j →
    Apart H c c'
  ready : ∀ (i : Nat) (t : Turn), s.turns[i]? = some t → t.progress.Ready H (S.view s.store)

section
variable {S : HealthyStore} {H : Digest} {s s' : System S.State}

/-- One turn took a step. -/
structure Stepped (S : HealthyStore) (H : Digest) (s s' : System S.State) (i : Nat) (t : Turn)
    (m : Move) : Prop where
  turn : s.turns[i]? = some t
  turns : s'.turns = s.turns.set i (t.after m)
  trace : s'.trace = s.trace ++ tagged i m.happened
  effect : Effect H (S.view s.store) t.progress m.happened m.progress (S.view s'.store)

theorem Owned.stepped (h : Owned S H s) {l : Label} {t : Turn} (hturn : s.turns[l.turn]? = some t) :
    Stepped S H s (s.step S.port H l) l.turn t (t.move S.port H l.ports s.store).1 := by
  unfold System.step
  rw [hturn]
  exact ⟨hturn, rfl, rfl, move_effect S H t l.ports s.store (h.ready _ _ hturn)⟩

/-- A label is a step of one turn, or of none. -/
theorem Owned.step_cases (h : Owned S H s) (l : Label) :
    s.step S.port H l = s ∨ ∃ t m, Stepped S H s (s.step S.port H l) l.turn t m := by
  cases hturn : s.turns[l.turn]? with
  | none =>
    refine .inl ?_
    unfold System.step
    rw [hturn]
  | some t => exact .inr ⟨t, _, h.stepped hturn⟩

section
variable {i : Nat} {t : Turn} {m : Move}

theorem Stepped.history (h : Stepped S H s s' i t m) (j : Nat) :
    historyOf j s'.trace = historyOf j s.trace ++ if j = i then m.happened else [] := by
  rw [h.trace, historyOf_extend]

theorem Stepped.turn_self (h : Stepped S H s s' i t m) : s'.turns[i]? = some (t.after m) := by
  obtain ⟨hlt, -⟩ := List.getElem?_eq_some_iff.mp h.turn
  rw [h.turns, List.getElem?_set_self hlt]

theorem Stepped.turn_other (h : Stepped S H s s' i t m) {j : Nat} (hj : j ≠ i) :
    s'.turns[j]? = s.turns[j]? := by
  rw [h.turns, List.getElem?_set_ne hj.symm]

/-- An observation is an old one, or one of the step's. -/
theorem Stepped.mem_trace (h : Stepped S H s s' i t m) {j : Nat} {a : Happening} :
    ⟨j, a⟩ ∈ s'.trace ↔ ⟨j, a⟩ ∈ s.trace ∨ (j = i ∧ a ∈ m.happened) := by
  rw [← mem_historyOf, h.history, List.mem_append, mem_historyOf]
  by_cases hj : j = i <;> simp [hj]

/-- The keys of a dispatch of another turn are left alone. -/
theorem Owned.frame (h : Owned S H s) (hstep : Stepped S H s s' i t m) {j : Nat} (hj : j ≠ i)
    {c : Candidate} (hc : ⟨j, .dispatched c⟩ ∈ s.trace) :
    S.view s'.store (c.policyKey H) = S.view s.store (c.policyKey H) ∧
      S.view s'.store c.legacyKey = S.view s.store c.legacyKey := by
  obtain ⟨hpolicy, hlegacy⟩ := h.held j c hc
  have hother : ∀ d call, t.progress = .executing d call → Apart H c d.candidate := by
    intro d call hp
    have hmem := (h.recorded i t hstep.turn).dispatched_of_held (.inr ⟨call, hp⟩)
    exact h.apart j i c d.candidate hc (mem_historyOf.mp hmem) hj
  constructor
  · exact hstep.effect.frame hpolicy
      (fun d call hp => ⟨(hother d call hp).policy, (hother d call hp).policyLegacy⟩)
  · exact hstep.effect.frame hlegacy
      (fun d call hp => ⟨(hother d call hp).legacyPolicy, (hother d call hp).legacy⟩)

/-- A turn that another turn's step leaves where it is keeps its keys. -/
theorem Owned.ready_other (h : Owned S H s) (hstep : Stepped S H s s' i t m) {j : Nat}
    (hj : j ≠ i) {u : Turn} (hu : s.turns[j]? = some u) :
    u.progress.Ready H (S.view s'.store) := by
  have hready := h.ready j u hu
  have hkeep : ∀ d, (u.progress = .execute d ∨ ∃ call, u.progress = .executing d call) →
      d.Pending H (S.view s.store) → d.Pending H (S.view s'.store) := by
    intro d hp hd
    have hmem := (h.recorded j u hu).dispatched_of_held hp
    obtain ⟨hpolicy, hlegacy⟩ := h.frame hstep hj (mem_historyOf.mp hmem)
    exact ⟨hd.tracked, hd.policy.congr hpolicy, hd.legacy.congr hlegacy⟩
  cases hp : u.progress with
  | execute d =>
    rw [hp] at hready
    exact hkeep d (.inl hp) hready
  | executing d call =>
    rw [hp] at hready
    exact hkeep d (.inr ⟨call, hp⟩) hready
  | _ => exact trivial

/-- A new dispatch shares no key with an old one. -/
theorem Owned.apart_new (h : Owned S H s) (hstep : Stepped S H s s' i t m) {j : Nat}
    {c c' : Candidate} (hc : ⟨j, .dispatched c⟩ ∈ s.trace) (hc' : .dispatched c' ∈ m.happened) :
    Apart H c c' := by
  obtain ⟨hpolicy, hlegacy⟩ := h.held j c hc
  obtain ⟨⟨hpolicy', hlegacy'⟩, -⟩ := hstep.effect.dispatched hc'
  constructor
  · exact fun he => hpolicy (he ▸ hpolicy')
  · exact fun he => hlegacy (he ▸ hlegacy')
  · exact fun he => hpolicy (he ▸ hlegacy')
  · exact fun he => hlegacy (he ▸ hpolicy')

theorem Owned.of_stepped (h : Owned S H s) (hstep : Stepped S H s s' i t m) : Owned S H s' where
  recorded := by
    intro j u hu
    rw [hstep.history]
    by_cases hj : j = i
    · subst hj
      rw [hstep.turn_self] at hu
      cases hu
      rw [if_pos rfl]
      exact hstep.effect.recorded (h.recorded j t hstep.turn)
    · rw [hstep.turn_other hj] at hu
      rw [if_neg hj, List.append_nil]
      exact h.recorded j u hu
  within := by
    intro j hj
    have hne : j ≠ i := by
      intro hsame
      obtain rfl := hsame
      rw [hstep.turn_self] at hj
      cases hj
    rw [hstep.turn_other hne] at hj
    rw [hstep.history, if_neg hne, List.append_nil]
    exact h.within j hj
  held := by
    intro j c hc
    rcases hstep.mem_trace.mp hc with hc | ⟨rfl, hc⟩
    · obtain ⟨hpolicy, hlegacy⟩ := h.held j c hc
      exact ⟨hstep.effect.present hpolicy, hstep.effect.present hlegacy⟩
    · exact (hstep.effect.dispatched hc).2
  apart := by
    intro j k c c' hc hc' hne
    rcases hstep.mem_trace.mp hc with hc | ⟨rfl, hc⟩ <;>
      rcases hstep.mem_trace.mp hc' with hc' | ⟨rfl, hc'⟩
    · exact h.apart j k c c' hc hc' hne
    · exact h.apart_new hstep hc hc'
    · exact (h.apart_new hstep hc' hc).symm
    · exact absurd rfl hne
  ready := by
    intro j u hu
    by_cases hj : j = i
    · subst hj
      rw [hstep.turn_self] at hu
      cases hu
      exact hstep.effect.ready (h.ready j t hstep.turn)
    · rw [hstep.turn_other hj] at hu
      exact h.ready_other hstep hj hu

end

theorem owned_step (h : Owned S H s) (l : Label) : Owned S H (s.step S.port H l) := by
  rcases h.step_cases l with heq | ⟨t, m, hstep⟩
  · rw [heq]
    exact h
  · exact h.of_stepped hstep

theorem owned_start (store : S.State) (calls : List TurnCall) :
    Owned S H (System.start store calls) := by
  have hprogress : ∀ (i : Nat) (t : Turn), (System.start store calls).turns[i]? = some t →
      t.progress.early = true := by
    intro i t ht
    obtain ⟨c, -, rfl⟩ : ∃ c ∈ calls, Turn.start c.engine c.input c.action = t := by
      simpa [System.start] using List.mem_of_getElem? ht
    rfl
  refine ⟨fun i t ht => .early (hprogress i t ht), fun _ _ => rfl, ?_, ?_, ?_⟩
  · exact fun _ _ hc => by cases hc
  · exact fun _ _ _ _ hc => by cases hc
  · intro i t ht
    have hearly := hprogress i t ht
    cases hp : t.progress <;> first | exact trivial | (rw [hp] at hearly; cases hearly)

/-! ### Systems that are not left alone -/

/-- A turn of a list that was added to. -/
theorem added_turn {turns : List Turn} {t t' : Turn} {i : Nat} (h : (turns ++ [t'])[i]? = some t) :
    turns[i]? = some t ∨ turns[i]? = none ∧ t = t' := by
  by_cases hi : i < turns.length
  · rw [List.getElem?_append_left hi] at h
    exact .inl h
  · rw [List.getElem?_append_right (by omega)] at h
    exact .inr ⟨List.getElem?_eq_none (by omega), List.mem_singleton.mp (List.mem_of_getElem? h)⟩

theorem not_added_turn {turns : List Turn} {t' : Turn} {i : Nat} (h : (turns ++ [t'])[i]? = none) :
    turns[i]? = none := by
  have hle := List.getElem?_eq_none_iff.mp h
  rw [List.length_append] at hle
  exact List.getElem?_eq_none (by omega)

/-- Another turn is started. -/
theorem Owned.started (h : Owned S H s) (c : TurnCall) :
    Owned S H { s with turns := s.turns ++ [Turn.start c.engine c.input c.action] } where
  recorded := by
    intro i t ht
    rcases added_turn ht with ht | ⟨hnone, rfl⟩
    · exact h.recorded i t ht
    · show Recorded H (.noopOrReasoning c.action) (historyOf i s.trace)
      rw [h.within i hnone]
      exact .early rfl
  within := fun i hi => h.within i (not_added_turn hi)
  held := h.held
  apart := h.apart
  ready := by
    intro i t ht
    rcases added_turn ht with ht | ⟨-, rfl⟩
    · exact h.ready i t ht
    · exact trivial

/-- What a turn past the dedupe phase has dispatched. -/
def Progress.dispatch? : Progress → Option Dispatch
  | .execute d | .executing d _ => some d
  | _ => none

/-- Someone else writes to the store: no key goes, and the keys of the turns past the
dedupe phase are left alone. -/
theorem Owned.written (h : Owned S H s) {store : S.State}
    (hpresent : ∀ key, S.view s.store key ≠ none → S.view store key ≠ none)
    (hheld : ∀ (i : Nat) (t : Turn) (d : Dispatch), s.turns[i]? = some t →
      t.progress.dispatch? = some d →
      S.view store (d.candidate.policyKey H) = S.view s.store (d.candidate.policyKey H) ∧
        S.view store d.candidate.legacyKey = S.view s.store d.candidate.legacyKey) :
    Owned S H { s with store := store } where
  recorded := h.recorded
  within := h.within
  held := by
    intro i c hc
    obtain ⟨hpolicy, hlegacy⟩ := h.held i c hc
    exact ⟨hpresent _ hpolicy, hpresent _ hlegacy⟩
  apart := h.apart
  ready := by
    intro i t ht
    have hkeep : ∀ d, t.progress.dispatch? = some d → d.Pending H (S.view s.store) →
        d.Pending H (S.view store) := by
      intro d hd hpending
      obtain ⟨hpolicy, hlegacy⟩ := hheld i t d ht hd
      exact ⟨hpending.tracked, hpending.policy.congr hpolicy, hpending.legacy.congr hlegacy⟩
    have hready := h.ready i t ht
    cases hp : t.progress with
    | execute d =>
      rw [hp] at hready hkeep
      exact hkeep d rfl hready
    | executing d call =>
      rw [hp] at hready hkeep
      exact hkeep d rfl hready
    | _ => exact trivial

/-- **Every interleaving keeps the keys of its turns apart.** -/
theorem interleaved_owned (S : HealthyStore) (H : Digest) (store : S.State) (calls : List TurnCall)
    (labels : List Label) : Owned S H (interleaved S.port H store calls labels) :=
  @run_invariant _ _ _ (Owned S H) (fun _ l h => owned_step h l) _ (owned_start store calls) labels

/-- What every step of a turn keeps, while the keys are owned, every interleaving
keeps. -/
theorem interleaved_invariant {P : System S.State → Prop} {store : S.State}
    {calls : List TurnCall} (start : P (System.start store calls))
    (step : ∀ (s s' : System S.State) (i : Nat) (t : Turn) (m : Move), Owned S H s →
      Stepped S H s s' i t m → P s → P s') (labels : List Label) :
    P (interleaved S.port H store calls labels) := by
  have hinvariant : Owned S H (interleaved S.port H store calls labels) ∧
      P (interleaved S.port H store calls labels) := by
    refine @run_invariant _ _ _ (fun s => Owned S H s ∧ P s) ?_ _
      ⟨owned_start store calls, start⟩ labels
    intro s l hboth
    obtain ⟨howned, hs⟩ := hboth
    refine ⟨owned_step howned l, ?_⟩
    rcases howned.step_cases l with heq | ⟨t, m, hstep⟩
    · rw [heq]
      exact hs
    · exact step s _ _ t m howned hstep hs
  exact hinvariant.2

end
end AgentKernel.Turns
