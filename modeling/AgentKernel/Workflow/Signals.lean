import AgentKernel.Workflow.Steps

/-! Signals and the tokens they are remembered by.

A delivery looks its token up, awaits the projection and the append, and only then marks
the token. Between the look-up and the mark it is *held*. As long as no two deliveries
under one token are held at the same time, every token has at most one event in the log:
a token that is marked has exactly one and nobody holds it, and one that is not marked
has none, or one whose delivery is about to mark it (`Remembered`). Signals of different
types and causes may still share a token, since the token joins the two texts with a
colon. -/
namespace AgentKernel.Workflow
open Lib Dedupe Turns Events Projection Reconcile

/-! ### Where a signal's call stands -/

/-- The delivery held between the look-up of its token and the mark. -/
def Stage.held? : Stage → Option Delivery
  | .signalled d | .recording d _ => some d
  | _ => none

/-- The delivery whose commit is being processed. -/
def Stage.marked? : Stage → Option Delivery
  | .catchingUp q | .readying q _ | .lookingUp q _ | .marking q _ => q.delivery
  | .turning a _ | .intending a _ _ | .recordingOutcome a _ _ | .gateBefore a _ | .deciding a _ _
  | .gateAfter a _ _ _ | .recovering a _ _ _ | .settling a _ _ => a.processing.delivery
  | _ => none

namespace Status

def held? (x : Status) : Option Delivery := x.stage?.bind Stage.held?

def marked? (x : Status) : Option Delivery := x.stage?.bind Stage.marked?

/-- The delivery whose event is in the log and whose token is not marked yet. -/
def recorded? : Status → Option Delivery
  | .answered (.recording d _) (.ok _) => some d
  | _ => none

end Status

/-- The signal whose event a service has taken. -/
def Note.recorded? : Note → Option ActorSignal
  | .served (.recording d _) (.ok _) => some d.signal
  | _ => none

/-- The signals that have an event in the log, one for each event. -/
def recordedSignals (trace : List (Tagged Nat Note)) : List ActorSignal :=
  trace.filterMap (fun o => o.what.recorded?)

/-- Those with a given token. -/
def recordedUnder (trace : List (Tagged Nat Note)) (token : String) : List ActorSignal :=
  (recordedSignals trace).filter (fun s => s.token? = some token)

theorem recordedUnder_append (a b : List (Tagged Nat Note)) (token : String) :
    recordedUnder (a ++ b) token = recordedUnder a token ++ recordedUnder b token := by
  rw [recordedUnder, recordedSignals, List.filterMap_append, List.filter_append]
  rfl

theorem recordedUnder_silent {i : Nat} {notes : List Note} (h : ∀ n ∈ notes, n.recorded? = none)
    (token : String) : recordedUnder (tagged i notes) token = [] := by
  have hnone : recordedSignals (tagged i notes) = [] :=
    List.filterMap_eq_nil_iff.mpr (fun o ho => h o.what (who_of_mem_tagged ho).2)
  rw [recordedUnder, hnone]
  rfl

theorem recorded?_ofCall {n : Note} (h : n.ofCall = true) : n.recorded? = none := by
  cases n with
  | served st reply => cases h
  | _ => rfl

section
variable {σ : Type}

/-- No two deliveries under one token are held. -/
def Solo (w : World σ) : Prop :=
  ∀ (i j : Nat) x y d d' token, w.calls[i]? = some x → w.calls[j]? = some y →
    x.held? = some d → y.held? = some d' → d.signal.token? = some token →
    d'.signal.token? = some token → i = j

/-! ### The invariant -/

/-- What a token that is not marked may have: no event, or one whose delivery is on its
way to mark it. -/
inductive Unmarked (w : World σ) (token : String) : Prop where
  | absent (hnone : recordedUnder w.trace token = [])
      (hfree : ∀ (i : Nat) x d, w.calls[i]? = some x → x.recorded? = some d → d.signal.token? ≠ some token)
  | recorded (i : Nat) (x : Status) (d : Delivery) (hone : (recordedUnder w.trace token).length = 1)
      (hcall : w.calls[i]? = some x) (hx : x.recorded? = some d) (htoken : d.signal.token? = some token)

structure Remembered (w : World σ) : Prop where
  seen : ∀ token ∈ w.process.actor.seenSignalTokens, (recordedUnder w.trace token).length = 1 ∧
    ∀ (i : Nat) x d, w.calls[i]? = some x → x.held? = some d → d.signal.token? ≠ some token
  unseen : ∀ token, token ∉ w.process.actor.seenSignalTokens → Unmarked w token
  marked : ∀ (i : Nat) x d token, w.calls[i]? = some x → x.marked? = some d →
    d.signal.token? = some token → token ∈ w.process.actor.seenSignalTokens
  done : ∀ i s token, ⟨i, .handled s⟩ ∈ w.trace ∨ ⟨i, .suppressed s⟩ ∈ w.trace →
    s.token? = some token → token ∈ w.process.actor.seenSignalTokens

/-- A delivery whose event is in the log is held. -/
theorem held?_of_recorded? {x : Status} {d : Delivery} (h : x.recorded? = some d) :
    x.held? = some d := by
  unfold Status.recorded? at h
  split at h
  · cases h
    rfl
  · cases h

/-- The call at one index changed, or was added. -/
def Replaces (calls calls' : List Status) (i : Nat) (y : Status) : Prop :=
  ∀ j, calls'[j]? = if j = i then some y else calls[j]?

theorem replaces_set {calls : List Status} {i : Nat} {x : Status} (h : calls[i]? = some x) (y : Status) :
    Replaces calls (calls.set i y) i y := by
  intro j
  obtain ⟨hlt, -⟩ := List.getElem?_eq_some_iff.mp h
  by_cases hj : j = i
  · subst hj
    rw [if_pos rfl, List.getElem?_set_self hlt]
  · rw [if_neg hj, List.getElem?_set_ne (Ne.symm hj)]

theorem replaces_append (calls : List Status) (y : Status) :
    Replaces calls (calls ++ [y]) calls.length y := by
  intro j
  by_cases hj : j = calls.length
  · subst hj
    rw [if_pos rfl, List.getElem?_concat_length]
  · rw [if_neg hj]
    by_cases hlt : j < calls.length
    · rw [List.getElem?_append_left hlt]
    · rw [List.getElem?_eq_none (by rw [List.length_append, List.length_singleton]; omega),
        List.getElem?_eq_none (by omega)]

/-- A step of a call that marks nothing and records nothing: what the call holds now it
held before, or it has just found the token unmarked. -/
structure Quiet (seen : List String) (x : Option Status) (y : Status) (notes : List Note) : Prop where
  held : ∀ d, y.held? = some d → x.bind Status.held? = some d ∨
    ∀ token, d.signal.token? = some token → token ∉ seen
  unrecorded : y.recorded? = none
  unrecordedBefore : x.bind Status.recorded? = none
  marked : ∀ d, y.marked? = some d → x.bind Status.marked? = some d
  handled : ∀ s, .handled s ∈ notes → ∃ d, x.bind Status.marked? = some d ∧ d.signal = s
  suppressed : ∀ s token, .suppressed s ∈ notes → s.token? = some token → token ∈ seen
  silent : ∀ n ∈ notes, n.recorded? = none

/-- The part of a step that matters for signals. -/
structure Changed (w w' : World σ) (i : Nat) (y : Status) (notes : List Note) : Prop where
  calls : Replaces w.calls w'.calls i y
  trace : w'.trace = w.trace ++ tagged i notes

section
variable {w w' : World σ} {i : Nat} {y : Status} {notes : List Note}

theorem Changed.self (h : Changed w w' i y notes) : w'.calls[i]? = some y := by
  rw [h.calls i, if_pos rfl]

theorem Changed.other (h : Changed w w' i y notes) {j : Nat} (hj : j ≠ i) :
    w'.calls[j]? = w.calls[j]? := by
  rw [h.calls j, if_neg hj]

/-- A call is the one that changed, or stands where it stood. -/
theorem Changed.cases (h : Changed w w' i y notes) {j : Nat} {x : Status}
    (hj : w'.calls[j]? = some x) : (j = i ∧ x = y) ∨ (j ≠ i ∧ w.calls[j]? = some x) := by
  by_cases hji : j = i
  · subst hji
    rw [h.self] at hj
    cases hj
    exact .inl ⟨rfl, rfl⟩
  · rw [h.other hji] at hj
    exact .inr ⟨hji, hj⟩

theorem Changed.mem_trace (h : Changed w w' i y notes) {j : Nat} {n : Note}
    (hn : ⟨j, n⟩ ∈ w'.trace) : ⟨j, n⟩ ∈ w.trace ∨ n ∈ notes := by
  rw [h.trace] at hn
  rcases List.mem_append.mp hn with hn | hn
  · exact .inl hn
  · exact .inr (who_of_mem_tagged hn).2

/-- A quiet step keeps the invariant. -/
theorem Remembered.quiet (h : Remembered w) (hc : Changed w w' i y notes)
    (hseen : w'.process.actor.seenSignalTokens = w.process.actor.seenSignalTokens)
    (hq : Quiet w.process.actor.seenSignalTokens w.calls[i]? y notes) : Remembered w' := by
  have hunder : ∀ token, recordedUnder w'.trace token = recordedUnder w.trace token := by
    intro token
    rw [hc.trace, recordedUnder_append, recordedUnder_silent hq.silent, List.append_nil]
  constructor
  · intro token htoken
    rw [hseen] at htoken
    obtain ⟨hone, hfree⟩ := h.seen token htoken
    refine ⟨by rw [hunder]; exact hone, fun j x d hj hx => ?_⟩
    rcases hc.cases hj with ⟨rfl, rfl⟩ | ⟨-, hold⟩
    · rcases hq.held d hx with hold | hnew
      · obtain ⟨x', hx', hd⟩ := Option.bind_eq_some_iff.mp hold
        exact hfree j x' d hx' hd
      · intro hd
        exact hnew token hd htoken
    · exact hfree j x d hold hx
  · intro token htoken
    rw [hseen] at htoken
    cases h.unseen token htoken with
    | absent hnone hfree =>
      refine .absent (by rw [hunder]; exact hnone) (fun j x d hj hx => ?_)
      rcases hc.cases hj with ⟨rfl, rfl⟩ | ⟨-, hold⟩
      · rw [hq.unrecorded] at hx
        cases hx
      · exact hfree j x d hold hx
    | recorded j x d hone hcall hx hd =>
      refine .recorded j x d (by rw [hunder]; exact hone) ?_ hx hd
      have hji : j ≠ i := by
        intro hsame
        subst hsame
        have hnone := hq.unrecordedBefore
        rw [hcall, Option.bind_some, hx] at hnone
        cases hnone
      rw [hc.other hji]
      exact hcall
  · intro j x d token hj hx hd
    rw [hseen]
    rcases hc.cases hj with ⟨rfl, rfl⟩ | ⟨-, hold⟩
    · obtain ⟨x', hx', hmark⟩ := Option.bind_eq_some_iff.mp (hq.marked d hx)
      exact h.marked j x' d token hx' hmark hd
    · exact h.marked j x d token hold hx hd
  · intro j s token hdone htoken
    rw [hseen]
    have hmarked : ∀ s', .handled s' ∈ notes → s'.token? = some token →
        token ∈ w.process.actor.seenSignalTokens := by
      intro s' hs' ht
      obtain ⟨d, hd, rfl⟩ := hq.handled s' hs'
      obtain ⟨x', hx', hmark⟩ := Option.bind_eq_some_iff.mp hd
      exact h.marked i x' d token hx' hmark ht
    rcases hdone with hdone | hdone
    · rcases hc.mem_trace hdone with hold | hnew
      · exact h.done j s token (.inl hold) htoken
      · exact hmarked s hnew htoken
    · rcases hc.mem_trace hdone with hold | hnew
      · exact h.done j s token (.inr hold) htoken
      · exact hq.suppressed s token hnew htoken

/-- The event of a held delivery enters the log. -/
theorem Remembered.record (h : Remembered w) (hsolo : Solo w) {d : Delivery} {commit : ActionCommit}
    {reply : Stage.Reply (.recording d commit)} (hreply : reply = .ok ())
    (hx : w.calls[i]? = some (.awaiting (.recording d commit)))
    (hc : Changed w w' i (.answered (.recording d commit) reply) [.served (.recording d commit) reply])
    (hseen : w'.process.actor.seenSignalTokens = w.process.actor.seenSignalTokens) :
    Remembered w' := by
  subst hreply
  have hunder : ∀ token, recordedUnder w'.trace token = recordedUnder w.trace token ++
      if d.signal.token? = some token then [d.signal] else [] := by
    intro token
    rw [hc.trace, recordedUnder_append]
    congr 1
    by_cases htoken : d.signal.token? = some token <;>
      simp [recordedUnder, recordedSignals, tagged, Note.recorded?, htoken]
  -- Nothing is in the log yet under the token of a delivery that is held unanswered.
  have hfresh : ∀ token, d.signal.token? = some token → recordedUnder w.trace token = [] := by
    intro token htoken
    have hnot : token ∉ w.process.actor.seenSignalTokens := by
      intro hmem
      exact (h.seen token hmem).2 i _ d hx rfl htoken
    cases h.unseen token hnot with
    | absent hnone _ => exact hnone
    | recorded j x d' _ hcall hrec hd' =>
      have hsame := hsolo j i x _ d' d token hcall hx (held?_of_recorded? hrec) rfl hd' htoken
      subst hsame
      rw [hx] at hcall
      cases hcall
      cases hrec
  constructor
  · intro token hmem
    rw [hseen] at hmem
    obtain ⟨hone, hfree⟩ := h.seen token hmem
    have hne : d.signal.token? ≠ some token := hfree i _ d hx rfl
    refine ⟨by rw [hunder, if_neg hne, List.append_nil]; exact hone, fun j x d' hj hheld => ?_⟩
    rcases hc.cases hj with ⟨rfl, rfl⟩ | ⟨-, hold⟩
    · cases hheld
      exact hne
    · exact hfree j x d' hold hheld
  · intro token hmem
    rw [hseen] at hmem
    by_cases htoken : d.signal.token? = some token
    · refine .recorded i _ d ?_ hc.self rfl htoken
      rw [hunder, if_pos htoken, hfresh token htoken]
      rfl
    · cases h.unseen token hmem with
      | absent hnone hfree =>
        refine .absent (by rw [hunder, if_neg htoken, List.append_nil]; exact hnone)
          (fun j x d' hj hrec => ?_)
        rcases hc.cases hj with ⟨rfl, rfl⟩ | ⟨-, hold⟩
        · cases hrec
          exact htoken
        · exact hfree j x d' hold hrec
      | recorded j x d' hone hcall hrec hd' =>
        refine .recorded j x d' (by rw [hunder, if_neg htoken, List.append_nil]; exact hone) ?_ hrec hd'
        have hji : j ≠ i := by
          intro hsame
          subst hsame
          rw [hx] at hcall
          cases hcall
          cases hrec
        rw [hc.other hji]
        exact hcall
  · intro j x d' token hj hmark htoken
    rw [hseen]
    rcases hc.cases hj with ⟨rfl, rfl⟩ | ⟨-, hold⟩
    · cases hmark
    · exact h.marked j x d' token hold hmark htoken
  · intro j s token hdone htoken
    rw [hseen]
    refine h.done j s token (hdone.imp ?_ ?_) htoken
    · intro hn
      exact (hc.mem_trace hn).resolve_right (by simp)
    · intro hn
      exact (hc.mem_trace hn).resolve_right (by simp)

/-- The token of a recorded delivery is marked. -/
theorem Remembered.mark (h : Remembered w) (hsolo : Solo w) {d : Delivery} {commit : ActionCommit}
    {reply : Stage.Reply (.recording d commit)} (hreply : reply = .ok ())
    (hx : w.calls[i]? = some (.answered (.recording d commit) reply))
    (hc : Changed w w' i y [])
    (hy : y.held? = none) (hmark : ∀ d', y.marked? = some d' → d' = d)
    (hseen : w'.process.actor.seenSignalTokens =
      d.signal.token?.toList ++ w.process.actor.seenSignalTokens) : Remembered w' := by
  subst hreply
  have hunder : ∀ token, recordedUnder w'.trace token = recordedUnder w.trace token := by
    intro token
    rw [hc.trace, recordedUnder_append]
    exact List.append_nil _
  have hmem : ∀ token, token ∈ w'.process.actor.seenSignalTokens ↔
      d.signal.token? = some token ∨ token ∈ w.process.actor.seenSignalTokens := by
    intro token
    rw [hseen, List.mem_append, Option.mem_toList]
  constructor
  · intro token htoken
    rw [hunder]
    have hheld : ∀ (j : Nat) x d', w'.calls[j]? = some x → x.held? = some d' →
        j ≠ i ∧ w.calls[j]? = some x := by
      intro j x d' hj hx'
      rcases hc.cases hj with ⟨rfl, rfl⟩ | hold
      · rw [hy] at hx'
        cases hx'
      · exact hold
    by_cases hd : d.signal.token? = some token
    · -- The delivery itself is recorded and not marked before the step.
      have hnot : token ∉ w.process.actor.seenSignalTokens := fun hold =>
        (h.seen token hold).2 i _ d hx rfl hd
      constructor
      · cases h.unseen token hnot with
        | absent _ hfree => exact absurd hd (hfree i _ d hx rfl)
        | recorded _ _ _ hone _ _ _ => exact hone
      · intro j x d' hj hx' hd'
        obtain ⟨hji, hold⟩ := hheld j x d' hj hx'
        exact hji (hsolo j i x _ d' d token hold hx hx' rfl hd' hd)
    · obtain ⟨hone, hfree⟩ := h.seen token (((hmem token).mp htoken).resolve_left hd)
      refine ⟨hone, fun j x d' hj hx' => ?_⟩
      obtain ⟨-, hold⟩ := hheld j x d' hj hx'
      exact hfree j x d' hold hx'
  · intro token htoken
    obtain ⟨hd, hnot⟩ := not_or.mp (fun hor => htoken ((hmem token).mpr hor))
    cases h.unseen token hnot with
    | absent hnone hfree =>
      refine .absent (by rw [hunder]; exact hnone) (fun j x d' hj hrec => ?_)
      rcases hc.cases hj with ⟨rfl, rfl⟩ | ⟨-, hold⟩
      · rw [held?_of_recorded? hrec] at hy
        cases hy
      · exact hfree j x d' hold hrec
    | recorded j x d' hone hcall hrec hd' =>
      refine .recorded j x d' (by rw [hunder]; exact hone) ?_ hrec hd'
      have hji : j ≠ i := by
        intro hsame
        subst hsame
        rw [hx] at hcall
        cases hcall
        cases hrec
        exact hd hd'
      rw [hc.other hji]
      exact hcall
  · intro j x d' token hj hmarked htoken
    rw [hmem]
    rcases hc.cases hj with ⟨rfl, rfl⟩ | ⟨-, hold⟩
    · rw [hmark d' hmarked] at htoken
      exact .inl htoken
    · exact .inr (h.marked j x d' token hold hmarked htoken)
  · intro j s token hdone htoken
    rw [hmem]
    refine .inr (h.done j s token (hdone.imp ?_ ?_) htoken)
    · intro hn
      exact (hc.mem_trace hn).resolve_right (fun hmem => nomatch hmem)
    · intro hn
      exact (hc.mem_trace hn).resolve_right (fun hmem => nomatch hmem)

end

/-! ### Quiet steps -/

section
variable {K : Kernel σ} {seen : List String} {x : Option Status} {notes : List Note}

/-- A call that ends holds and marks nothing. -/
theorem quiet_ended (hx : x.bind Status.recorded? = none) (r : Except Raised Unit) :
    Quiet seen x (.ended r) [] where
  held := fun _ h => nomatch h
  unrecorded := rfl
  unrecordedBefore := hx
  marked := fun _ h => nomatch h
  handled := fun _ h => nomatch h
  suppressed := fun _ _ h => nomatch h
  silent := fun _ h => nomatch h

/-- A call at a stage without a signal. -/
theorem quiet_awaiting {st : Stage} (hx : x.bind Status.recorded? = none) (hheld : st.held? = none)
    (hmarked : ∀ d, st.marked? = some d → x.bind Status.marked? = some d) :
    Quiet seen x (.awaiting st) [] where
  held := fun d h => by
    rw [show (Status.awaiting st).held? = st.held? from rfl, hheld] at h
    cases h
  unrecorded := rfl
  unrecordedBefore := hx
  marked := hmarked
  handled := fun _ h => nomatch h
  suppressed := fun _ _ h => nomatch h
  silent := fun _ h => nomatch h

/-- One more note of a signal turned away, or of one whose delivery was processed. -/
theorem Quiet.cons {y : Status} (h : Quiet seen x y notes) {n : Note}
    (hhandled : ∀ s, n = .handled s → ∃ d, x.bind Status.marked? = some d ∧ d.signal = s)
    (hsuppressed : ∀ s token, n = .suppressed s → s.token? = some token → token ∈ seen)
    (hsilent : n.recorded? = none) : Quiet seen x y (n :: notes) where
  held := h.held
  unrecorded := h.unrecorded
  unrecordedBefore := h.unrecordedBefore
  marked := h.marked
  handled := by
    intro s hs
    rcases List.mem_cons.mp hs with hs | hs
    · exact hhandled s hs.symm
    · exact h.handled s hs
  suppressed := by
    intro s token hs htoken
    rcases List.mem_cons.mp hs with hs | hs
    · exact hsuppressed s token hs.symm htoken
    · exact h.suppressed s token hs htoken
  silent := by
    intro n' hn'
    rcases List.mem_cons.mp hn' with rfl | hn'
    · exact hsilent
    · exact h.silent n' hn'

theorem hasSeen_iff {a : Actor} {s : ActorSignal} :
    a.hasSeen s = true ↔ ∃ token, s.token? = some token ∧ token ∈ a.seenSignalTokens := by
  unfold Actor.hasSeen
  split
  · rename_i htoken
    simp [htoken]
  · rename_i token htoken
    simp [htoken]

theorem handleSignals_seen (p : Process σ) (signals : List ActorSignal) :
    (handleSignals p signals).process.actor.seenSignalTokens = p.actor.seenSignalTokens := by
  induction signals with
  | nil => rfl
  | cons s rest ih =>
    unfold handleSignals
    split
    · rfl
    · split
      · exact ih
      · split
        · exact ih
        · rfl

/-- Handling signals up to the first await is quiet. -/
theorem handleSignals_quiet (p : Process σ) (signals : List ActorSignal)
    (hx : x.bind Status.recorded? = none) :
    Quiet p.actor.seenSignalTokens x (handleSignals p signals).next.status
      (handleSignals p signals).notes := by
  induction signals with
  | nil => exact quiet_ended hx _
  | cons s rest ih =>
    unfold handleSignals
    split
    · exact quiet_ended hx _
    · split
      · exact ih.cons (fun _ h => nomatch h) (fun _ _ h => nomatch h) rfl
      · split
        · rename_i hseen
          refine ih.cons (fun _ h => nomatch h) (fun s' token hs' htoken => ?_) rfl
          cases hs'
          obtain ⟨token', htoken', hmem⟩ := hasSeen_iff.mp hseen
          rw [htoken] at htoken'
          cases htoken'
          exact hmem
        · rename_i runId hrun hauth hnew
          refine ⟨fun d hd => .inr (fun token htoken hmem => ?_), rfl, hx, (fun _ h => nomatch h),
            (fun _ h => nomatch h), (fun _ _ h => nomatch h), (fun _ h => nomatch h)⟩
          cases hd
          exact hnew (hasSeen_iff.mpr ⟨token, htoken, hmem⟩)

theorem replayPending_quiet (p : Process σ) (input : RunInput) (hx : x.bind Status.recorded? = none) :
    Quiet p.actor.seenSignalTokens x (replayPending p input).next.status
        (replayPending p input).notes ∧
      (replayPending p input).process.actor.seenSignalTokens = p.actor.seenSignalTokens :=
  ⟨handleSignals_quiet { p with actor := { p.actor with pendingSignals := [] } } _ hx,
    handleSignals_seen _ _⟩

theorem processed_quiet (m : Moment) (p : Process σ) (delivery : Option Delivery)
    (hx : x.bind Status.recorded? = none)
    (hdelivery : ∀ d, delivery = some d → x.bind Status.marked? = some d) :
    Quiet p.actor.seenSignalTokens x (processed K m p delivery).next.status
      (processed K m p delivery).notes := by
  unfold processed
  split
  · exact quiet_ended hx _
  · rename_i d
    simp only
    split
    · exact (quiet_ended hx _).cons (fun _ h => nomatch h) (fun _ _ h => nomatch h) rfl
    · have hrest := handleSignals_quiet (x := x) { p with actor := { p.actor with
        historyEventCount := p.actor.historyEventCount + 1 } } d.rest hx
      refine hrest.cons (n := .handled d.signal) (fun s hs => ?_) (fun _ _ h => nomatch h) rfl
      cases hs
      exact ⟨d, hdelivery d rfl, rfl⟩

theorem processed_seen (m : Moment) (p : Process σ) (delivery : Option Delivery) :
    (processed K m p delivery).process.actor.seenSignalTokens = p.actor.seenSignalTokens := by
  unfold processed
  split
  · rfl
  · simp only
    split
    · rfl
    · exact handleSignals_seen _ _

/-- From await to await a call keeps its delivery. -/
theorem Follows.held {st st' : Stage} (h : Follows st st') {d : Delivery} (hd : st'.held? = some d) :
    st.held? = some d := by
  cases h with
  | recording => exact hd
  | _ => cases hd

theorem Guarded.marked {a : Acting} {st : Stage} (h : Guarded a st) :
    st.marked? = a.processing.delivery := by
  cases h <;> rfl

theorem Follows.marked {st st' : Stage} (h : Follows st st') {d : Delivery} (hd : st'.marked? = some d) :
    st.marked? = some d := by
  cases h with
  | handler hguard =>
    rw [hguard.marked]
    exact hd
  | _ => exact hd

theorem Returns.marked {st : Stage} {q : Processing} (h : Returns st q) : st.marked? = q.delivery := by
  cases h <;> rfl

theorem sweepRun_status (p : Process σ) (runId : String) (rest : List String)
    (loaded : Except PyError (List RuntimeEvent)) :
    (sweepRun K p runId rest loaded).process.actor = p.actor ∧
      (sweepRun K p runId rest loaded).next.status.held? = none ∧
      (sweepRun K p runId rest loaded).next.status.marked? = none ∧
      ∀ n ∈ (sweepRun K p runId rest loaded).notes, ∃ result, n = .reconciled result := by
  unfold sweepRun
  split
  · cases rest with
    | nil => exact ⟨rfl, rfl, rfl, fun n hn => ⟨_, List.mem_singleton.mp hn⟩⟩
    | cons r rest => exact ⟨rfl, rfl, rfl, fun n hn => ⟨_, List.mem_singleton.mp hn⟩⟩
  · exact ⟨rfl, rfl, rfl, fun _ hn => nomatch hn⟩

/-- **A call that does not come back from its append goes on quietly.** -/
theorem resume_quiet (m : Moment) (p : Process σ) {st : Stage} {reply : st.Reply}
    (hx : (Status.answered st reply).recorded? = none) :
    Quiet p.actor.seenSignalTokens (some (.answered st reply)) (resume K m p st reply).next.status
        (resume K m p st reply).notes ∧
      (resume K m p st reply).process.actor.seenSignalTokens = p.actor.seenSignalTokens := by
  have hcont := resume_continued K m p st reply
  generalize resume K m p st reply = r at hcont
  have hx' : (some (Status.answered st reply)).bind Status.recorded? = none := hx
  cases hcont with
  | ended => exact ⟨quiet_ended hx' _, rfl⟩
  | awaits hfollows =>
    refine ⟨⟨fun d hd => .inl (hfollows.held hd), rfl, hx', fun d hd => hfollows.marked hd,
      (fun _ h => nomatch h), (fun _ _ h => nomatch h), (fun _ h => nomatch h)⟩, rfl⟩
  | @started input projection _ =>
    exact replayPending_quiet { p with actor := { p.actor with lastProjection := some projection } }
      input hx'
  | pins _ => exact ⟨quiet_awaiting hx' rfl (fun _ h => nomatch h), rfl⟩
  | pinned => exact replayPending_quiet p _ hx'
  | recorded => cases hx
  | caughtUp => exact ⟨quiet_awaiting hx' rfl (fun _ h => h), rfl⟩
  | returned hreturns =>
    refine ⟨processed_quiet m p _ hx' (fun d hd => ?_), processed_seen m p _⟩
    show Stage.marked? _ = some d
    rw [hreturns.marked, hd]
  | acts _ => exact ⟨quiet_awaiting hx' rfl (fun _ h => h), rfl⟩
  | unintended =>
    exact ⟨quiet_awaiting hx' rfl (fun _ h => h), congrArg _ (rollBack_actor p _)⟩
  | unrecorded =>
    exact ⟨quiet_awaiting hx' rfl (fun _ h => h), congrArg _ (rollBack_actor p _)⟩
  | @sweeps runId rest _ loaded =>
    obtain ⟨hactor, hheld, hmarked, hnotes⟩ := sweepRun_status (K := K) p runId rest loaded
    refine ⟨⟨fun d hd => ?_, ?_, hx', fun d hd => ?_, fun s hs => ?_, fun s _ hs => ?_, fun n hn => ?_⟩,
      congrArg _ hactor⟩
    · rw [hheld] at hd
      cases hd
    · cases hrec : (sweepRun K p runId rest loaded).next.status.recorded? with
      | none => rfl
      | some d =>
        rw [held?_of_recorded? hrec] at hheld
        cases hheld
    · rw [hmarked] at hd
      cases hd
    · obtain ⟨_, hs⟩ := hnotes _ hs
      cases hs
    · obtain ⟨_, hs⟩ := hnotes _ hs
      cases hs
    · obtain ⟨_, rfl⟩ := hnotes _ hn
      rfl

end

/-! ### Every step -/

theorem Unmarked.congr {w w' : World σ} {token : String} (h : Unmarked w token)
    (hcalls : w'.calls = w.calls) (htrace : w'.trace = w.trace) : Unmarked w' token := by
  cases h with
  | absent hnone hfree => exact .absent (by rw [htrace]; exact hnone) (by rw [hcalls]; exact hfree)
  | recorded i x d hone hcall hx htoken =>
    exact .recorded i x d (by rw [htrace]; exact hone) (by rw [hcalls]; exact hcall) hx htoken

/-- What turns do is nothing to signals. -/
theorem Remembered.engine {w : World σ} (h : Remembered w) (engine : System σ) :
    Remembered { w with process := { w.process with engine := engine } } where
  seen := h.seen
  unseen := fun token htoken => (h.unseen token htoken).congr rfl rfl
  marked := h.marked
  done := h.done

theorem processActionCommit_status (commit : ActionCommit) (delivery : Option Delivery) :
    (processActionCommit commit delivery).status.held? = none ∧
      (processActionCommit commit delivery).status.recorded? = none ∧
      ∀ d, (processActionCommit commit delivery).status.marked? = some d → delivery = some d := by
  unfold processActionCommit
  split
  · exact ⟨rfl, rfl, fun _ h => nomatch h⟩
  · split
    · exact ⟨rfl, rfl, fun _ h => nomatch h⟩
    · exact ⟨rfl, rfl, fun _ h => h⟩

/-- Making a call is quiet. -/
theorem enter_quiet {p : Process σ} {entry : Entry} {r : Resumed σ} (h : enter p entry = some r) :
    Quiet p.actor.seenSignalTokens none r.next.status r.notes ∧
      r.process.actor.seenSignalTokens = p.actor.seenSignalTokens := by
  cases entry with
  | run input =>
    unfold enter at h
    simp only at h
    split at h
    · cases h
    · cases h
      exact ⟨quiet_awaiting rfl rfl (fun _ h => nomatch h), rfl⟩
  | signal s =>
    unfold enter at h
    simp only at h
    split at h
    · cases h
      exact ⟨quiet_ended rfl _, rfl⟩
    · cases h
      exact ⟨handleSignals_quiet p [s] rfl, handleSignals_seen p [s]⟩
  | processActionCommit commit =>
    cases h
    obtain ⟨hheld, hrec, hmarked⟩ := processActionCommit_status commit none
    refine ⟨⟨fun d hd => ?_, hrec, rfl, fun d hd => ?_, (fun _ h => nomatch h),
      (fun _ _ h => nomatch h), (fun _ h => nomatch h)⟩, rfl⟩
    · rw [hheld] at hd
      cases hd
    · cases hmarked d hd
  | write commit =>
    cases h
    exact ⟨quiet_awaiting rfl rfl (fun _ h => nomatch h), rfl⟩
  | reconcileOnce runIds =>
    cases h
    cases runIds with
    | nil => exact ⟨quiet_ended rfl _, rfl⟩
    | cons runId rest => exact ⟨quiet_awaiting rfl rfl (fun _ h => nomatch h), rfl⟩

theorem recorded?_served (st : Stage) (reply : st.Reply) :
    (Note.served st reply).recorded? = (Status.answered st reply).recorded?.map Delivery.signal := by
  cases st with
  | recording d commit => cases reply <;> rfl
  | _ => rfl

/-- A service that takes no signal's event changes nothing for the signals. -/
theorem served_quiet {seen : List String} {st : Stage} {reply : st.Reply}
    (hrec : (Status.answered st reply).recorded? = none) :
    Quiet seen (some (.awaiting st)) (.answered st reply) [.served st reply] where
  held := fun _ hd => .inl hd
  unrecorded := hrec
  unrecordedBefore := rfl
  marked := fun _ hd => hd
  handled := fun _ h => by cases List.mem_singleton.mp h
  suppressed := fun _ _ h => by cases List.mem_singleton.mp h
  silent := by
    intro n hn
    rw [List.mem_singleton.mp hn, recorded?_served, hrec]
    rfl

/-- A call that comes back from its append, or any other. -/
theorem recorded?_cases (st : Stage) (reply : st.Reply) :
    (Status.answered st reply).recorded? = none ∨
      ∃ d commit, ∃ h : st = .recording d commit, h ▸ reply = (.ok () : Stage.Reply (.recording d commit)) := by
  cases st with
  | recording d commit =>
    cases reply with
    | error r => exact .inl rfl
    | ok a => exact .inr ⟨d, commit, rfl, rfl⟩
  | _ => exact .inl rfl

theorem Remembered.step {K : Kernel σ} {w : World σ} (h : Remembered w) (hsolo : Solo w) {l : Label}
    (hl : l ≠ .restart) : Remembered (w.step K l) := by
  have htaken := step_taken K w l
  generalize w.step K l = w' at htaken
  cases htaken with
  | idle => exact h
  | called henter =>
    obtain ⟨hquiet, hseen⟩ := enter_quiet henter
    refine h.quiet ⟨replaces_append _ _, rfl⟩ hseen ?_
    rw [List.getElem?_eq_none (Nat.le_refl _)]
    exact hquiet
  | @served i b st reply services hcall hanswer =>
    have hchanged : Changed w { w with
        services := services
        calls := w.calls.set i (.answered st reply)
        trace := w.trace ++ tagged i [.served st reply] } i (.answered st reply) [.served st reply] :=
      ⟨replaces_set hcall _, rfl⟩
    rcases recorded?_cases st reply with hrec | ⟨d, commit, rfl, hreply⟩
    · refine h.quiet hchanged rfl ?_
      rw [hcall]
      exact served_quiet hrec
    · exact h.record hsolo hreply hcall hchanged rfl
  | @resumed i m st reply hcall =>
    have hchanged : Changed w (w.follow i (resume K m w.process st reply)) i
        (resume K m w.process st reply).next.status (resume K m w.process st reply).notes :=
      ⟨replaces_set hcall _, rfl⟩
    rcases recorded?_cases st reply with hrec | ⟨d, commit, rfl, rfl⟩
    · obtain ⟨hquiet, hseen⟩ := resume_quiet (K := K) m w.process hrec
      refine h.quiet hchanged hseen ?_
      rw [hcall]
      exact hquiet
    · obtain ⟨hheld, -, hmarked⟩ := processActionCommit_status commit (some d)
      exact h.mark hsolo rfl hcall hchanged hheld
        (fun d' hd' => (Option.some.inj (hmarked d' hd')).symm) rfl
  | startedTurn => exact h.engine _
  | movedTurn => exact h.engine _
  | restarted _ => exact absurd rfl hl

theorem remembered_fresh (journal : Journal) (store : σ) : Remembered (World.fresh journal store) where
  seen := fun _ h => nomatch h
  unseen := fun _ _ => .absent rfl (fun _ _ _ h => nomatch h)
  marked := fun _ _ _ _ h => nomatch h
  done := fun _ _ _ h => h.elim (fun h => nomatch h) (fun h => nomatch h)

end
end AgentKernel.Workflow
