import AgentKernel.Workflow.Engine

/-! Decision rounds and the fingerprints they are remembered by.

`process_action_commit` looks the fingerprint of its commit up and marks it in a second
call of the deduper; between the two, another call can look it up and find it unmarked,
too. When that does not happen, every fingerprint is held by one call or marked once, never
both, and every invocation of `run_turn` was marked for (`Counted`). -/
namespace AgentKernel.Workflow
open Lib Dedupe Turns Events Projection Reconcile

/-! ### Where a decision round stands -/

/-- What a decision round is for. -/
def Processing.triple (q : Processing) : String × String × Int :=
  (q.commit.runId, q.commit.commitId, q.offset)

/-- The commit whose fingerprint is about to be looked up. -/
def Status.looksUp? : Status → Option Processing
  | .awaiting (.lookingUp q _) => some q
  | _ => none

/-- The commit that was found unmarked and is not marked yet. -/
def Status.checked? : Status → Option Processing
  | .answered (.lookingUp q _) (.ok false) => some q
  | .awaiting (.marking q _) => some q
  | _ => none

/-- The commit that is marked and whose action is about to be carried out. -/
def Status.cleared? : Status → Option Processing
  | .answered (.marking q _) (.ok _) => if q.commit.action.isSome then some q else none
  | _ => none

/-- The commit a service has marked. -/
def Note.marked? : Note → Option Processing
  | .served (.marking q _) (.ok _) => some q
  | _ => none

def markedIn (trace : List (Tagged Nat Note)) : List Processing := trace.filterMap (fun o => o.what.marked?)

/-- A commit was turned away, as its fingerprint was marked. -/
def Note.suppressed? : Note → Option Processing
  | .served (.lookingUp q _) (.ok true) => some q
  | _ => none

def Processing.isAt (fingerprint : String) (q : Processing) : Bool := q.fingerprint = fingerprint

def Status.checksAt (fingerprint : String) (x : Status) : Bool := x.checked?.any (·.isAt fingerprint)

def Status.clearedAt (fingerprint : String) (x : Status) : Bool := x.cleared?.any (·.isAt fingerprint)

theorem markedIn_append (a b : List (Tagged Nat Note)) : markedIn (a ++ b) = markedIn a ++ markedIn b :=
  List.filterMap_append

theorem markedIn_silent {i : Nat} {notes : List Note} (h : ∀ n ∈ notes, n.marked? = none) :
    markedIn (tagged i notes) = [] := by
  refine List.filterMap_eq_nil_iff.mpr (fun o ho => ?_)
  exact h o.what (who_of_mem_tagged ho).2

theorem marked?_ofCall {n : Note} (h : n.ofCall = true) : n.marked? = none := by
  cases n with
  | served st reply => cases h
  | _ => rfl

theorem Next.status_cleared? (next : Next) : next.status.cleared? = none := by
  cases next <;> rfl

section
variable {σ : Type} {K : Kernel σ} {w : World σ}

theorem handleSignals_checked? (p : Process σ) (signals : List ActorSignal) :
    (handleSignals p signals).next.status.checked? = none := by
  induction signals with
  | nil => rfl
  | cons s rest ih =>
    unfold handleSignals
    split
    · rfl
    · split
      · exact ih
      · split
        · exact ih
        · rfl

theorem processActionCommit_checked? (commit : ActionCommit) (delivery : Option Delivery) :
    (processActionCommit commit delivery).status.checked? = none := by
  unfold processActionCommit
  split
  · rfl
  · split <;> rfl

theorem processed_checked? (m : Moment) (p : Process σ) (delivery : Option Delivery) :
    (processed K m p delivery).next.status.checked? = none := by
  unfold processed
  split
  · rfl
  · simp only
    split
    · rfl
    · exact handleSignals_checked? _ _

theorem sweepOn_checked? (p : Process σ) (runIds : List String) :
    (sweepOn p runIds).next.status.checked? = none := by
  cases runIds <;> rfl

/-- **Only a call that found its commit unmarked goes on to mark it.** -/
theorem resume_checked? {m : Moment} {p : Process σ} {st : Stage} {reply : st.Reply} {q : Processing}
    (h : (resume K m p st reply).next.status.checked? = some q) :
    (Status.answered st reply).checked? = some q := by
  have hcont := resume_continued K m p st reply
  generalize hr : resume K m p st reply = r at hcont h
  cases hcont with
  | ended => cases h
  | awaits hfollows =>
    cases hfollows with
    | @marking q' projection =>
      cases h
      cases reply with
      | error e => cases hr
      | ok seen =>
        cases seen with
        | false => rfl
        | true =>
          have hnone := processed_checked? (K := K) m p q.delivery
          have hsame : processed K m p q.delivery = ⟨p, .await (.marking q projection), []⟩ := hr
          rw [hsame] at hnone
          cases hnone
    | _ => cases h
  | started _ | pinned =>
    unfold replayPending at h
    rw [handleSignals_checked?] at h
    cases h
  | recorded =>
    rw [processActionCommit_checked?] at h
    cases h
  | returned _ =>
    rw [processed_checked?] at h
    cases h
  | sweeps _ =>
    unfold sweepRun at h
    split at h
    · rw [sweepOn_checked?] at h
      cases h
    · cases h
  | pins _ | caughtUp | acts _ | unintended | unrecorded => cases h

theorem enter_checked? {p : Process σ} {entry : Entry} {r : Resumed σ} (h : enter p entry = some r) :
    r.next.status.checked? = none := by
  cases entry with
  | run input =>
    unfold enter at h
    simp only at h
    split at h
    · cases h
    · cases h
      rfl
  | signal s =>
    unfold enter at h
    simp only at h
    split at h
    · cases h
      rfl
    · cases h
      exact handleSignals_checked? _ _
  | processActionCommit commit =>
    cases h
    exact processActionCommit_checked? commit none
  | write commit =>
    cases h
    rfl
  | reconcileOnce runIds =>
    cases h
    exact sweepOn_checked? _ _

end

/-! ### Counting -/

/-- Each fingerprint is checked by one call or marked once, and every round was marked for. -/
structure Counted (fingerprints : List String) (calls : List Status) (marked rounds : List Processing) :
    Prop where
  known : ∀ f, f ∈ fingerprints ↔ 0 < marked.countP (·.isAt f)
  single : ∀ f, calls.countP (·.checksAt f) + marked.countP (·.isAt f) ≤ 1
  cleared : ∀ f, rounds.countP (·.isAt f) + calls.countP (·.clearedAt f) ≤ marked.countP (·.isAt f)

section
variable {fingerprints fingerprints' : List String} {calls : List Status}
  {marked marked' rounds rounds' : List Processing} {i : Nat} {x y : Status}

theorem countP_replaced (p : Status → Bool) (hx : calls[i]? = some x) (y : Status) :
    (calls.set i y).countP p + (p x).toNat = calls.countP p + (p y).toNat := by
  obtain ⟨hlt, hget⟩ := List.getElem?_eq_some_iff.mp hx
  have hpos : p calls[i] = true → 0 < calls.countP p :=
    fun h => List.countP_pos_iff.mpr ⟨_, List.getElem_mem hlt, h⟩
  rw [List.countP_set hlt]
  rw [hget] at hpos ⊢
  cases hpx : p x
  · cases p y <;> simp
  · have hsome := hpos hpx
    cases p y <;> simp <;> omega

/-- One call changes. -/
theorem Counted.replace (h : Counted fingerprints calls marked rounds) (hx : calls[i]? = some x)
    (hknown : ∀ f, f ∈ fingerprints' ↔ 0 < marked'.countP (·.isAt f))
    (hsingle : ∀ f, (y.checksAt f).toNat + marked'.countP (·.isAt f) ≤
        (x.checksAt f).toNat + marked.countP (·.isAt f) ∨
      calls.countP (·.checksAt f) = 0 ∧ marked'.countP (·.isAt f) = 0)
    (hcleared : ∀ f, rounds'.countP (·.isAt f) + (y.clearedAt f).toNat + marked.countP (·.isAt f) ≤
        rounds.countP (·.isAt f) + (x.clearedAt f).toNat + marked'.countP (·.isAt f)) :
    Counted fingerprints' (calls.set i y) marked' rounds' := by
  refine ⟨hknown, fun f => ?_, fun f => ?_⟩
  · have hset := countP_replaced (·.checksAt f) hx y
    have hold := h.single f
    rcases hsingle f with hle | ⟨hnone, hmarked⟩
    · omega
    · have hone : (y.checksAt f).toNat ≤ 1 := Bool.toNat_le _
      omega
  · have hset := countP_replaced (·.clearedAt f) hx y
    have hold := h.cleared f
    have hle := hcleared f
    omega

/-- A call is made. -/
theorem Counted.add (h : Counted fingerprints calls marked rounds) (hchecked : y.checked? = none)
    (hcleared : y.cleared? = none) : Counted fingerprints (calls ++ [y]) marked rounds := by
  refine ⟨h.known, fun f => ?_, fun f => ?_⟩
  · have hnone : y.checksAt f = false := by
      unfold Status.checksAt
      rw [hchecked]
      rfl
    rw [List.countP_append, List.countP_singleton, hnone]
    exact h.single f
  · have hnone : y.clearedAt f = false := by
      unfold Status.clearedAt
      rw [hcleared]
      rfl
    rw [List.countP_append, List.countP_singleton, hnone]
    exact h.cleared f

end

/-! ### Steps -/

/-- The commit a step invokes `run_turn` for. -/
def World.startsTurn {σ : Type} (w : World σ) : Label → Option Processing
  | .resume i _ => w.calls[i]?.bind Status.cleared?
  | _ => none

section
variable {σ : Type} {K : Kernel σ} {w : World σ} {rounds : List Processing} {i : Nat}

/-- Nothing is looked up between another's look-up and mark. -/
def NoRace (calls : List Status) (i : Nat) : Prop :=
  ∀ q ∈ calls[i]?.bind Status.looksUp?, ∀ x ∈ calls, ∀ q' ∈ x.checked?, q'.fingerprint ≠ q.fingerprint

instance (calls : List Status) (i : Nat) : Decidable (NoRace calls i) :=
  inferInstanceAs (Decidable (∀ q ∈ calls[i]?.bind Status.looksUp?, ∀ x ∈ calls, ∀ q' ∈ x.checked?,
    q'.fingerprint ≠ q.fingerprint))

/-- What the invariant says in a world. -/
def World.Counted (w : World σ) (rounds : List Processing) : Prop :=
  Workflow.Counted w.services.fingerprints w.calls (markedIn w.trace) rounds

theorem World.Counted.idle {w' : World σ} {started : Option Processing} (h : w.Counted rounds)
    (hsame : w' = w) (hnone : started = none) : w'.Counted (rounds ++ started.toList) := by
  rw [hsame, hnone, Option.toList_none, List.append_nil]
  exact h

theorem countP_started (rounds : List Processing) (x : Status) (f : String) :
    (rounds ++ x.cleared?.toList).countP (·.isAt f) = rounds.countP (·.isAt f) + (x.clearedAt f).toNat := by
  unfold Status.clearedAt
  rw [List.countP_append]
  cases x.cleared? with
  | none => rfl
  | some q => rw [Option.toList_some, List.countP_singleton, Option.any_some]; cases q.isAt f <;> rfl

/-- A call goes on if it was answered. -/
theorem resume_cases (K : Kernel σ) (w : World σ) (i : Nat) (m : Moment) :
    (∃ st reply, w.calls[i]? = some (.answered st reply) ∧
      w.step K (.resume i m) = w.follow i (Workflow.resume K m w.process st reply) ∧
      w.startsTurn (.resume i m) = (Status.answered st reply).cleared?) ∨
    (w.step K (.resume i m) = w ∧ w.startsTurn (.resume i m) = none) := by
  have hstarts : w.startsTurn (.resume i m) = w.calls[i]?.bind Status.cleared? := rfl
  rw [hstarts]
  unfold World.step
  simp only
  split
  · rename_i st reply hcall
    rw [hcall, Option.bind_some]
    exact .inl ⟨st, reply, rfl, rfl, rfl⟩
  · rename_i hnot
    refine .inr ⟨rfl, Option.bind_eq_none_iff.mpr (fun x hx => ?_)⟩
    cases x with
    | answered st reply => exact absurd hx (hnot st reply)
    | _ => rfl

/-- A call that goes on invokes `run_turn` if it was cleared. -/
theorem World.Counted.resume (h : w.Counted rounds) (m : Moment) :
    (w.step K (.resume i m)).Counted (rounds ++ (w.startsTurn (.resume i m)).toList) := by
  rcases resume_cases K w i m with ⟨st, reply, hcall, hstep, hstarts⟩ | ⟨hstep, hstarts⟩
  · rw [hstep, hstarts]
    show Workflow.Counted w.services.fingerprints (w.calls.set i _)
      (markedIn (w.trace ++ tagged i (Workflow.resume K m w.process st reply).notes)) _
    rw [markedIn_append, markedIn_silent (fun n hn => marked?_ofCall (resume_notes m w.process st reply n hn)),
      List.append_nil]
    refine Workflow.Counted.replace h hcall h.known (fun f => .inl ?_) (fun f => ?_)
    · have hfewer : Status.checksAt f (Workflow.resume K m w.process st reply).next.status = true →
          Status.checksAt f (.answered st reply) = true := by
        unfold Status.checksAt
        rw [Option.any_eq_true, Option.any_eq_true]
        intro hat
        obtain ⟨q, hq, hf⟩ := hat
        exact ⟨q, resume_checked? hq, hf⟩
      have hle := Bool.toNat_le_toNat hfewer
      omega
    · have hnone : Status.clearedAt f (Workflow.resume K m w.process st reply).next.status = false := by
        unfold Status.clearedAt
        rw [Next.status_cleared?]
        rfl
      rw [hnone, countP_started]
      simp

  · exact h.idle hstep hstarts

/-- Only a mark changes what is marked. -/
theorem answer_fingerprints {sv sv' : Services} {b : Behaviour} {turns : List Turn} {q : Request}
    {reply : Except Raised q.Answer} (h : sv.answer b turns q = some (reply, sv'))
    (hmark : ∀ f, q ≠ .mark f) : sv'.fingerprints = sv.fingerprints := by
  have hproject : ∀ {runId : String} {through : Option Int} {p : RunProjection} {sv' : Services},
      sv.project runId through = .ok (p, sv') → sv'.fingerprints = sv.fingerprints := by
    intro runId through p sv' h
    unfold Services.project at h
    split at h
    · cases h
      rfl
    · cases h
  rcases answer_cases h with hp | ⟨-, rfl⟩
  · cases q with
    | mark f => exact absurd rfl (hmark f)
    | projection runId | catchUp runId offset | readiness runId offset =>
      unfold Services.perform at hp
      simp only at hp
      split at hp
      · rename_i hok
        cases hp
        exact hproject hok
      · cases hp
        rfl
    | append commit =>
      unfold Services.perform at hp
      simp only at hp
      split at hp <;> cases hp <;> rfl
    | turn index =>
      unfold Services.perform at hp
      simp only at hp
      split at hp <;> cases hp <;> rfl
    | _ =>
      cases hp
      rfl
  · rfl

/-- The step of a service that neither looks up nor marks. -/
theorem World.Counted.quiet {st : Stage} {reply : st.Reply} {fingerprints : List String}
    (h : w.Counted rounds) (hcall : w.calls[i]? = some (.awaiting st))
    (hsame : fingerprints = w.services.fingerprints) (hchecked : (Status.answered st reply).checked? = none)
    (hcleared : (Status.answered st reply).cleared? = none) (hmarked : (Note.served st reply).marked? = none) :
    Workflow.Counted fingerprints (w.calls.set i (.answered st reply))
      (markedIn (w.trace ++ tagged i [.served st reply])) rounds := by
  have hsilent : markedIn (tagged i [.served st reply]) = [] := by
    refine markedIn_silent (fun n hn => ?_)
    rw [List.mem_singleton.mp hn]
    exact hmarked
  rw [hsame, markedIn_append, hsilent, List.append_nil]
  refine Workflow.Counted.replace h hcall h.known (fun f => .inl ?_) (fun f => ?_)
  · unfold Status.checksAt
    rw [hchecked, Option.any_none, Bool.toNat_false]
    omega
  · unfold Status.clearedAt
    rw [hcleared, Option.any_none, Bool.toNat_false]
    omega

theorem countP_eq_zero_of_race {calls : List Status} {q : Processing} {projection : RunProjection}
    (hrace : NoRace calls i) (hcall : calls[i]? = some (.awaiting (.lookingUp q projection))) :
    calls.countP (·.checksAt q.fingerprint) = 0 := by
  refine List.countP_eq_zero.mpr (fun x hx hat => ?_)
  unfold Status.checksAt at hat
  rw [Option.any_eq_true] at hat
  obtain ⟨q', hq', hf⟩ := hat
  exact hrace q (by rw [hcall]; rfl) x hx q' hq' (of_decide_eq_true hf)

/-- A fingerprint was looked up, and is not marked. -/
theorem World.Counted.found {q : Processing} {projection : RunProjection} (h : w.Counted rounds)
    (hrace : NoRace w.calls i) (hcall : w.calls[i]? = some (.awaiting (.lookingUp q projection)))
    (hnew : q.fingerprint ∉ w.services.fingerprints) :
    Workflow.Counted w.services.fingerprints (w.calls.set i (.answered (.lookingUp q projection) (.ok false)))
      (markedIn (w.trace ++ tagged i [.served (.lookingUp q projection) (.ok false)])) rounds := by
  have hsilent : markedIn (tagged i [.served (.lookingUp q projection) (.ok false)]) = [] := rfl
  have hunmarked : (markedIn w.trace).countP (·.isAt q.fingerprint) = 0 :=
    Nat.eq_zero_of_not_pos (fun hpos => hnew ((h.known _).mpr hpos))
  rw [markedIn_append, hsilent, List.append_nil]
  refine Workflow.Counted.replace h hcall h.known (fun f => ?_) (fun f => Nat.le_refl _)
  by_cases hf : q.fingerprint = f
  · subst hf
    exact .inr ⟨countP_eq_zero_of_race hrace hcall, hunmarked⟩
  · have hother : Status.checksAt f (.answered (.lookingUp q projection) (.ok false)) = false :=
      decide_eq_false hf
    refine .inl ?_
    rw [hother, Bool.toNat_false]
    omega

/-- A fingerprint is marked. -/
theorem World.Counted.mark {q : Processing} {projection : RunProjection} (h : w.Counted rounds)
    (hcall : w.calls[i]? = some (.awaiting (.marking q projection))) :
    Workflow.Counted (q.fingerprint :: w.services.fingerprints)
      (w.calls.set i (.answered (.marking q projection) (.ok ())))
      (markedIn (w.trace ++ tagged i [.served (.marking q projection) (.ok ())])) rounds := by
  have hmarked : markedIn (tagged i [.served (.marking q projection) (.ok ())]) = [q] := rfl
  have hcount : ∀ f, (markedIn w.trace ++ [q]).countP (·.isAt f) =
      (markedIn w.trace).countP (·.isAt f) + (q.isAt f).toNat := by
    intro f
    rw [List.countP_append, List.countP_singleton]
    cases q.isAt f <;> rfl
  rw [markedIn_append, hmarked]
  refine Workflow.Counted.replace h hcall (fun f => ?_) (fun f => .inl ?_) (fun f => ?_)
  · have hknown := h.known f
    rw [hcount, List.mem_cons]
    by_cases hf : q.fingerprint = f
    · have hat : q.isAt f = true := decide_eq_true hf
      rw [hat, Bool.toNat_true]
      exact ⟨fun _ => by omega, fun _ => .inl hf.symm⟩
    · have hat : q.isAt f = false := decide_eq_false hf
      rw [hat, Bool.toNat_false, Nat.add_zero, ← hknown]
      exact ⟨fun h => h.resolve_left (Ne.symm hf), .inr⟩
  · have hbefore : Status.checksAt f (.awaiting (.marking q projection)) = q.isAt f := rfl
    have hafter : Status.checksAt f (.answered (.marking q projection) (.ok ())) = false := rfl
    rw [hcount, hbefore, hafter, Bool.toNat_false]
    omega
  · have hbefore : Status.clearedAt f (.awaiting (.marking q projection)) = false := rfl
    have hafter : (Status.clearedAt f (.answered (.marking q projection) (.ok ()))).toNat ≤ (q.isAt f).toNat := by
      unfold Status.clearedAt Status.cleared?
      simp only
      split
      · exact Nat.le_refl _
      · exact Nat.zero_le _
    rw [hcount, hbefore, Bool.toNat_false]
    omega

/-- **A service answers.** -/
theorem World.Counted.serve (h : w.Counted rounds) (hrace : NoRace w.calls i) (b : Behaviour) :
    (w.step K (.serve i b)).Counted rounds := by
  have htaken := step_taken K w (.serve i b)
  generalize w.step K (.serve i b) = w' at htaken
  cases htaken with
  | idle => exact h
  | @served _ _ st reply services hcall hanswer =>
    show Workflow.Counted services.fingerprints (w.calls.set i (.answered st reply))
      (markedIn (w.trace ++ tagged i [.served st reply])) rounds
    cases st with
    | lookingUp q projection =>
      have hsame := answer_fingerprints hanswer (fun f => nofun)
      rcases answer_cases hanswer with hp | ⟨⟨e, rfl⟩, rfl⟩
      · cases hp
        cases hseen : decide (q.fingerprint ∈ w.services.fingerprints) with
        | true => exact h.quiet hcall rfl rfl rfl rfl
        | false => exact h.found hrace hcall (of_decide_eq_false hseen)
      · exact h.quiet hcall hsame rfl rfl rfl
    | marking q projection =>
      rcases answer_cases hanswer with hp | ⟨⟨e, rfl⟩, rfl⟩
      · cases hp
        exact h.mark hcall
      · exact h.quiet hcall rfl rfl rfl rfl
    | _ => exact h.quiet hcall (answer_fingerprints hanswer (fun f => nofun)) rfl rfl rfl

/-- **Every step of a call keeps the counts.** -/
theorem World.Counted.step (h : w.Counted rounds) {l : Label} (hl : l ≠ .restart)
    (hrace : ∀ i b, l = .serve i b → NoRace w.calls i) :
    (w.step K l).Counted (rounds ++ (w.startsTurn l).toList) := by
  have hquiet : ∀ (j : Nat) (notes : List Note), (∀ n ∈ notes, n.ofCall = true) →
      markedIn (w.trace ++ tagged j notes) = markedIn w.trace := by
    intro j notes hnotes
    rw [markedIn_append, markedIn_silent (fun n hn => marked?_ofCall (hnotes n hn)), List.append_nil]
  cases l with
  | resume i m => exact h.resume m
  | serve i b =>
    rw [show w.startsTurn (.serve i b) = none from rfl, Option.toList_none, List.append_nil]
    exact h.serve (hrace i b rfl) b
  | call entry =>
    rw [show w.startsTurn (.call entry) = none from rfl, Option.toList_none, List.append_nil]
    cases henter : enter w.process entry with
    | none =>
      unfold World.step
      simp only [henter]
      exact h
    | some r =>
      rw [step_entered henter]
      show Workflow.Counted w.services.fingerprints (w.calls ++ [r.next.status])
        (markedIn (w.trace ++ tagged w.calls.length r.notes)) rounds
      rw [hquiet _ _ (enter_notes henter)]
      exact Workflow.Counted.add h (enter_checked? henter) (Next.status_cleared? r.next)
  | runTurn c | turn l =>
    show World.Counted _ (rounds ++ [])
    rw [List.append_nil]
    exact h
  | restart => exact absurd rfl hl

theorem rollBack_turns (p : Process σ) (result : TurnResult) :
    (rollBack K p result).engine.turns = p.engine.turns := by
  unfold rollBack
  split <;> rfl

theorem turns_resumed (m : Moment) (p : Process σ) (st : Stage) (reply : st.Reply) :
    (resume K m p st reply).process.engine.turns = p.engine.turns ++
      (Status.answered st reply).cleared?.toList.map (fun q => Turn.start K.engine
        { runId := q.commit.runId
          throughOffset := q.offset
          basedOnOffset := q.offset
          triggerType := .signal } q.commit.action) := by
  cases hcleared : (Status.answered st reply).cleared? with
  | some q =>
    unfold Status.cleared? at hcleared
    split at hcleared
    · rename_i q' projection u heq
      cases heq
      split at hcleared
      · rename_i haction
        cases hcleared
        cases u
        obtain ⟨action, haction⟩ := Option.isSome_iff_exists.mp haction
        unfold resume
        simp only [haction, Option.toList_some, List.map_cons, List.map_nil]
        rfl
      · cases hcleared
    · cases hcleared
  | none =>
    rw [Option.toList_none, List.map_nil, List.append_nil]
    have hcont := resume_continued K m p st reply
    generalize resume K m p st reply = r at hcont
    cases hcont with
    | started _ | pinned =>
      unfold replayPending
      rw [handleSignals_engine]
    | returned _ => rw [processed_engine]
    | acts haction =>
      unfold Status.cleared? at hcleared
      simp only [haction, Option.isSome_some, if_true] at hcleared
      cases hcleared
    | unintended | unrecorded => exact rollBack_turns p _
    | sweeps _ => rw [sweepRun_engine]
    | ended | awaits _ | pins _ | recorded | caughtUp => rfl

/-- A round invokes `run_turn` once, for its commit and its action. -/
theorem turns_resume (K : Kernel σ) (w : World σ) (i : Nat) (m : Moment) :
    (w.step K (.resume i m)).process.engine.turns = w.process.engine.turns ++
      (w.startsTurn (.resume i m)).toList.map (fun q => Turn.start K.engine
        { runId := q.commit.runId
          throughOffset := q.offset
          basedOnOffset := q.offset
          triggerType := .signal } q.commit.action) := by
  rcases resume_cases K w i m with ⟨st, reply, -, hstep, hstarts⟩ | ⟨hstep, hstarts⟩
  · rw [hstep, hstarts]
    exact turns_resumed m w.process st reply
  · rw [hstep, hstarts, Option.toList_none, List.map_nil, List.append_nil]

/-! ### What is suppressed -/

/-- No other commit was marked with the same fingerprint. -/
def NoClash (calls : List Status) (trace : List (Tagged Nat Note)) (i : Nat) : Prop :=
  ∀ q ∈ calls[i]?.bind Status.looksUp?,
    ∀ q' ∈ markedIn trace, q'.fingerprint = q.fingerprint → q'.triple = q.triple

instance (calls : List Status) (trace : List (Tagged Nat Note)) (i : Nat) :
    Decidable (NoClash calls trace i) :=
  inferInstanceAs (Decidable (∀ q ∈ calls[i]?.bind Status.looksUp?,
    ∀ q' ∈ markedIn trace, q'.fingerprint = q.fingerprint → q'.triple = q.triple))

/-- What is turned away was marked before, for the same commit of the same run. -/
def SuppressedByOwn (trace : List (Tagged Nat Note)) : Prop :=
  Preceded (fun o pre => ∀ q, o.what.suppressed? = some q → ∃ q' ∈ markedIn pre, q'.triple = q.triple) trace

theorem SuppressedByOwn.marked {trace : List (Tagged Nat Note)} (h : SuppressedByOwn trace)
    {o : Tagged Nat Note} (ho : o ∈ trace) {q : Processing} (hq : o.what.suppressed? = some q) :
    ∃ q' ∈ markedIn trace, q'.triple = q.triple := by
  obtain ⟨pre, post, hsplit⟩ := List.append_of_mem ho
  obtain ⟨q', hq', htriple⟩ := h pre o post hsplit q hq
  refine ⟨q', ?_, htriple⟩
  rw [hsplit, markedIn_append]
  exact List.mem_append_left _ hq'

theorem SuppressedByOwn.silent {trace : List (Tagged Nat Note)} (h : SuppressedByOwn trace) {j : Nat}
    {notes : List Note} (hnotes : ∀ n ∈ notes, n.ofCall = true) :
    SuppressedByOwn (trace ++ tagged j notes) := by
  refine Preceded.append h (fun pre o post hsplit q hq => ?_)
  have hmem : o ∈ tagged j notes := by
    rw [hsplit]
    exact List.mem_append_right _ List.mem_cons_self
  have hcall := hnotes o.what (who_of_mem_tagged hmem).2
  cases hwhat : o.what with
  | served st reply =>
    rw [hwhat] at hcall
    cases hcall
  | _ =>
    rw [hwhat] at hq
    cases hq

theorem suppressed_step {l : Label} (h : SuppressedByOwn w.trace) (hcounted : w.Counted rounds)
    (hclash : ∀ i b, l = .serve i b → NoClash w.calls w.trace i) : SuppressedByOwn (w.step K l).trace := by
  have htaken := step_taken K w l
  generalize w.step K l = w' at htaken
  cases htaken with
  | idle => exact h
  | called henter => exact h.silent (enter_notes henter)
  | @served i b st reply services hcall hanswer =>
    refine Preceded.append h (fun pre o post hsplit q hq => ?_)
    have hmem : o ∈ tagged i [.served st reply] := by
      rw [hsplit]
      exact List.mem_append_right _ List.mem_cons_self
    rw [List.mem_singleton.mp (who_of_mem_tagged hmem).2] at hq
    cases st with
    | lookingUp q' projection =>
      rcases answer_cases hanswer with hp | ⟨⟨e, rfl⟩, rfl⟩
      · cases hp
        cases hseen : decide (q'.fingerprint ∈ w.services.fingerprints) with
        | false =>
          rw [hseen] at hq
          cases hq
        | true =>
          rw [hseen] at hq
          cases hq
          obtain ⟨q'', hmarked, hat⟩ :=
            List.countP_pos_iff.mp ((hcounted.known _).mp (of_decide_eq_true hseen))
          have htriple := hclash i b rfl q (by rw [hcall]; rfl) q'' hmarked (of_decide_eq_true hat)
          refine ⟨q'', ?_, htriple⟩
          rw [markedIn_append]
          exact List.mem_append_left _ hmarked
      · cases hq
    | _ => cases hq
  | resumed hcall => exact h.silent (resume_notes _ _ _ _)
  | startedTurn => exact h
  | movedTurn => exact h
  | restarted _ =>
    have hnone : ∀ n ∈ ([] : List Note), n.ofCall = true := fun n hn => nomatch hn
    exact h.silent hnone

end
end AgentKernel.Workflow
