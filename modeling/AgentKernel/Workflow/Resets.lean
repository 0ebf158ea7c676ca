import AgentKernel.Workflow.Deliveries
import AgentKernel.Workflow.Sessions

/-! What a history reset loses.

A session is compared with the same session that never continues as new. Up to the first
reset they are the same world. The successor then starts over the same log without the
signal numbers, the seen tokens, the policy versions and the stage of its predecessor, and
without the signals that were still to be replayed. So the two sessions agree in their
logs and in what their instances hold as long as nothing of this is needed again: the
instance that continues as new has no versions, no stage and no signals left, and every
signal after a reset is turned away (`resets_transparent`). -/
namespace AgentKernel.Workflow
open Lib Dedupe Turns Events Projection Reconcile

/-! ### Worlds at rest -/

section
variable {σ : Type} {K : Kernel σ} {w v : World σ}

/-- Every call has ended. -/
def World.idle (w : World σ) : Bool := w.calls.all (fun x => x.stage?.isNone)

theorem idle_stage (h : w.idle = true) {i : Nat} {x : Status} (hx : w.calls[i]? = some x) :
    x.stage? = none :=
  Option.isNone_iff_eq_none.mp (List.all_eq_true.mp h x (List.mem_of_getElem? hx))

theorem idle_serve (h : w.idle = true) (i : Nat) (b : Behaviour) : w.step K (.serve i b) = w := by
  unfold World.step
  simp only
  split
  · rename_i st hcall
    cases idle_stage h hcall
  · rfl

theorem idle_resume (h : w.idle = true) (i : Nat) (m : Moment) : w.step K (.resume i m) = w := by
  unfold World.step
  simp only
  split
  · rename_i st reply hcall
    cases idle_stage h hcall
  · rfl

theorem idle_awaited (h : w.idle = true) (i : Nat) (ports : List Await) :
    run (World.step K) w (awaited i ports) = w := by
  induction ports with
  | nil => rfl
  | cons a rest ih =>
    show run (World.step K) ((w.step K (.serve i a.behaviour)).step K (.resume i a.moment)) _ = w
    rw [idle_serve h, idle_resume h]
    exact ih

theorem idle_append {x : Status} (hx : x.stage? = none) (h : w.idle = true) :
    (w.calls ++ [x]).all (fun x => x.stage?.isNone) = true := by
  rw [List.all_append, show w.calls.all (fun x => x.stage?.isNone) = true from h]
  simp [hx]

/-- Without a reset there is nobody to replace. -/
theorem renew_unrenewed (h : w.process.actor.continuedAs = none) : renew K w = w := by
  have hrestart : w.step K .restart = w := by
    unfold World.step
    simp only [h]
  have hgone : w.calls[w.calls.length]? = none := List.getElem?_eq_none (Nat.le_refl _)
  have hserve : w.step K (.serve w.calls.length {}) = w := by
    unfold World.step
    simp only [hgone]
  have hresume : w.step K (.resume w.calls.length {}) = w := by
    unfold World.step
    simp only [hgone]
  show ((w.step K .restart).step K (.serve _ {})).step K (.resume _ {}) = w
  rw [hrestart, hserve, hresume]

/-! ### While nothing was reset -/

/-- A world in which one call of the first instance may be under way. -/
structure Attended (input : RunInput) (i : Nat) (w : World σ) : Prop where
  alone : ∀ k x, w.calls[k]? = some x → k ≠ i → x.stage? = none
  services : w.services.UpToDate
  remembered : Remembered w
  runId_eq : w.process.actor.runId = some input.runId
  unrenewed : w.process.actor.continuedAs = none
  versions : w.process.actor.policyVersions = input.policyVersions
  stage : w.process.actor.activeStageId = input.initialStageId
  doing : ∃ x, w.calls[i]? = some x ∧ Doing input.runId w.services w.process.actor x

theorem held?_stage {x : Status} {d : Delivery} (h : x.held? = some d) : x.stage? ≠ none := by
  intro hnone
  rw [Status.held?, hnone] at h
  cases h

theorem solo_of_alone {i : Nat} (h : ∀ k x, w.calls[k]? = some x → k ≠ i → x.stage? = none) :
    Solo w := by
  intro k k' x y d d' token hx hy hd hd' _ _
  have hk : k = i := by
    by_contra hne
    exact held?_stage hd (h k x hx hne)
  have hk' : k' = i := by
    by_contra hne
    exact held?_stage hd' (h k' y hy hne)
  rw [hk, hk']

/-- Whatever a call is at, the events so far are issued. -/
theorem Doing.issued {runId : String} {sv : Services} {a : Actor} {x : Status} (h : Doing runId sv a x) :
    Issued runId sv.journal (a.signalSequence + 1) := by
  cases h with
  | starting _ hnil | started _ hnil | pinning hnil => exact issued_nil hnil _
  | asked _ hissued | read _ hissued _ | recording _ hissued _ => exact hissued.mono (Nat.le_succ _)
  | @recorded d _ _ now hrun hissued _ hlog | @refreshing d _ _ now hrun hissued _ hlog =>
    rw [hlog, ← hrun]
    rw [← hrun] at hissued
    exact hissued.signalled d.signal _ now
  | pinned hissued | refreshed _ hissued _ | shows _ hissued _ | shown _ hissued _ | failed _ hissued
  | ended hissued => exact hissued

section
variable {input : RunInput} {i : Nat}

theorem Attended.issued (h : Attended input i w) :
    Issued input.runId w.services.journal (w.process.actor.signalSequence + 1) := by
  obtain ⟨x, -, hdoing⟩ := h.doing
  exact hdoing.issued

/-- Another status for the call. -/
theorem alone_replaced (h : ∀ k x, w.calls[k]? = some x → k ≠ i → x.stage? = none) (y : Status) :
    ∀ k x, (w.calls.set i y)[k]? = some x → k ≠ i → x.stage? = none := by
  intro k x hx hk
  rw [List.getElem?_set_ne (Ne.symm hk)] at hx
  exact h k x hx hk

theorem Attended.serve (h : Attended input i w) (b : Behaviour) :
    Attended input i (w.step K (.serve i b)) := by
  have hremembered := h.remembered.step (K := K) (solo_of_alone h.alone) (l := .serve i b) (fun hl => nomatch hl)
  have htaken := step_taken K w (.serve i b)
  generalize w.step K (.serve i b) = w' at htaken hremembered
  obtain ⟨x, hx, hdoing⟩ := h.doing
  obtain ⟨hlt, -⟩ := List.getElem?_eq_some_iff.mp hx
  cases htaken with
  | idle => exact h
  | served hcall hanswer =>
    cases hx.symm.trans hcall
    exact ⟨alone_replaced h.alone _, (h.services.answer hanswer).1, hremembered, h.runId_eq, h.unrenewed,
      h.versions, h.stage, _, List.getElem?_set_self hlt, hdoing.served h.services hanswer⟩

/-- A call that goes on does what it would do without resets, or resets the history. -/
theorem Attended.resume (h : Attended input i w) (m : Moment) :
    (w.step K (.resume i m) = w.step K (.resume i m.still) ∧
      Attended input i (w.step K (.resume i m))) ∨
    ∃ st reply d, w.calls[i]? = some (.answered st reply) ∧
      Renews K input.runId w.services m w.process st reply d := by
  obtain ⟨x, hx, hdoing⟩ := h.doing
  obtain ⟨hlt, -⟩ := List.getElem?_eq_some_iff.mp hx
  cases x with
  | awaiting st =>
    have hstays : ∀ m, w.step K (.resume i m) = w := by
      intro m
      unfold World.step
      simp only [hx]
    rw [hstays, hstays]
    exact .inl ⟨rfl, h⟩
  | ended r =>
    have hstays : ∀ m, w.step K (.resume i m) = w := by
      intro m
      unfold World.step
      simp only [hx]
    rw [hstays, hstays]
    exact .inl ⟨rfl, h⟩
  | answered st reply =>
    have hgoes : ∀ m, w.step K (.resume i m) =
        w.follow i (AgentKernel.Workflow.resume K m w.process st reply) := by
      intro m
      unfold World.step
      simp only [hx]
    rcases resume_doing K m hdoing h.runId_eq h.unrenewed with ⟨hsame, hr⟩ | ⟨d, hrenews⟩
    · refine .inl ⟨by rw [hgoes, hgoes, hsame], ?_⟩
      have hremembered := h.remembered.step (K := K) (solo_of_alone h.alone) (l := .resume i m)
        (fun hl => nomatch hl)
      have hview := resume_view (K := K) m w.process st reply
      have hversions : (AgentKernel.Workflow.resume K m w.process st reply).process.actor.policyVersions =
          input.policyVersions := by
        rcases hview with hview | ⟨_, -, hview⟩
        · exact (congrArg View.policyVersions hview).trans h.versions
        · exact (congrArg View.policyVersions hview).trans h.versions
      have hstage : (AgentKernel.Workflow.resume K m w.process st reply).process.actor.activeStageId =
          input.initialStageId := by
        rcases hview with hview | ⟨_, -, hview⟩
        · exact (congrArg View.activeStageId hview).trans h.stage
        · exact (congrArg View.activeStageId hview).trans h.stage
      rw [hgoes] at hremembered ⊢
      exact ⟨alone_replaced h.alone _, h.services, hremembered, hr.runId_eq, hr.unrenewed, hversions,
        hstage, _, List.getElem?_set_self hlt, hr.doing⟩
    · exact .inr ⟨st, reply, d, hx, hrenews⟩

end

/-! ### At a reset -/

/-- A reset was noted. -/
def Note.renews : Note → Bool
  | .continuedAsNew _ => true
  | _ => false

/-- The history was reset. -/
def World.renewed (w : World σ) : Bool := w.trace.any (fun o => o.what.renews)

/-- A step that resets the history does so in an instance without policy versions and
stage, which has no signals left to replay. -/
def harmless (K : Kernel σ) (w : World σ) (l : Label) : Bool :=
  (w.step K l).process.actor.continuedAs.isNone ||
    (w.process.actor.policyVersions.isNone && w.process.actor.activeStageId.isNone &&
      w.calls.all (fun x => x.marked?.all (fun d => d.rest.isEmpty)))

/-- A session that has just been reset, and the session without the reset. -/
structure Parted (input : RunInput) (w v : World σ) : Prop where
  journal : w.services.journal = v.services.journal
  services : w.services.UpToDate
  idle : w.idle = true ∧ v.idle = true
  continuedAs : w.process.actor.continuedAs = some (v.process.actor.carried input.runId)
  pending : v.process.actor.pendingSignals = []
  runId_eq : v.process.actor.runId = some input.runId
  unrenewed : v.process.actor.continuedAs = none
  versions : v.process.actor.policyVersions = none ∧ input.policyVersions = none
  stage : v.process.actor.activeStageId = none ∧ input.initialStageId = none
  shown : v.process.actor.lastProjection = some (foldOf v.services.journal input.runId)
  nodup : ((v.services.journal.eventsOf input.runId).map RuntimeEvent.eventId).Nodup
  recorded : ∀ signalType cause, cause ≠ "" → (signalCommits w.trace signalType cause).length ≤ 1
  renewed : w.renewed = true

theorem signalCommits_silent {i : Nat} {notes : List Note} (h : ∀ n ∈ notes, n.recorded? = none)
    (entries : List (Tagged Nat Note)) (signalType cause : String) :
    signalCommits (entries ++ tagged i notes) signalType cause = signalCommits entries signalType cause := by
  have hnone : signalCommits (tagged i notes) signalType cause = [] := by
    refine List.filterMap_eq_nil_iff.mpr (fun o ho => ?_)
    rw [h o.what (who_of_mem_tagged ho).2]
    rfl
  unfold signalCommits at hnone ⊢
  rw [List.filterMap_append, hnone, List.append_nil]

theorem idle_set {i : Nat} {y : Status} (halone : ∀ k x, w.calls[k]? = some x → k ≠ i → x.stage? = none)
    (hy : y.stage? = none) : (w.calls.set i y).all (fun x => x.stage?.isNone) = true := by
  refine List.all_eq_true.mpr (fun x hx => Option.isNone_iff_eq_none.mpr ?_)
  obtain ⟨k, hk⟩ := List.mem_iff_getElem?.mp hx
  by_cases hki : k = i
  · subst hki
    obtain ⟨hlt, -⟩ := List.getElem?_eq_some_iff.mp hk
    rw [List.length_set] at hlt
    rw [List.getElem?_set_self hlt] at hk
    cases hk
    exact hy
  · exact alone_replaced halone y k x hk hki

/-- **A reset parts two sessions in what `RunInput` leaves out only.** -/
theorem Attended.parted {input : RunInput} {i : Nat} (h : Attended input i w) {m : Moment} {st : Stage}
    {reply : st.Reply} {d : Delivery} (hcall : w.calls[i]? = some (.answered st reply))
    (hrenews : Renews K input.runId w.services m w.process st reply d)
    (hharmless : harmless K w (.resume i m) = true) :
    Parted input (w.step K (.resume i m)) (w.step K (.resume i m.still)) := by
  have hgoes : ∀ m, w.step K (.resume i m) =
      w.follow i (AgentKernel.Workflow.resume K m w.process st reply) := by
    intro m
    unfold World.step
    simp only [hcall]
  have hnotes := resume_notes (K := K) m w.process st reply
  rw [hrenews.renewed] at hnotes
  unfold harmless at hharmless
  rw [hgoes, hrenews.renewed] at hharmless
  have hclean : (w.process.actor.policyVersions.isNone && w.process.actor.activeStageId.isNone &&
      w.calls.all (fun x => x.marked?.all (fun d => d.rest.isEmpty))) = true := hharmless
  rw [Bool.and_eq_true, Bool.and_eq_true] at hclean
  obtain ⟨⟨hversions, hstage⟩, hcalls⟩ := hclean
  have hversions := Option.isNone_iff_eq_none.mp hversions
  have hstage := Option.isNone_iff_eq_none.mp hstage
  have hrest : d.rest = [] := by
    have hlast := List.all_eq_true.mp hcalls _ (List.mem_of_getElem? hcall)
    have hmarked : (Status.answered st reply).marked? = some d := hrenews.marked
    rw [hmarked] at hlast
    exact List.isEmpty_iff.mp hlast
  have hstill : staying w.process d =
      ⟨w.process.counted, .end (.ok ()), [.handled d.signal]⟩ := by
    unfold staying
    rw [hrest]
    rfl
  rw [hgoes, hgoes, hrenews.renewed, hrenews.still, hstill]
  refine ⟨rfl, h.services, ⟨idle_set h.alone rfl, idle_set h.alone rfl⟩, ?_, hrenews.pending, h.runId_eq,
    h.unrenewed, ⟨hversions, h.versions.symm.trans hversions⟩, ⟨hstage, h.stage.symm.trans hstage⟩,
    hrenews.shown, hrenews.issued.nodup, ?_, ?_⟩
  · show some (w.process.counted.actor.carried d.runId) = _
    rw [hrenews.runId_eq]
    rfl
  · intro signalType cause hcause
    show (signalCommits (w.trace ++ tagged i _) signalType cause).length ≤ 1
    rw [signalCommits_silent (fun n hn => recorded?_ofCall (hnotes n hn))]
    exact h.remembered.signalCommits_le signalType hcause
  · show (w.trace ++ tagged i _).any _ = true
    rw [List.any_append, Bool.or_eq_true]
    exact .inr rfl


/-- What comes of a call, with resets and without. -/
inductive Drove (input : RunInput) (i : Nat) (w v : World σ) : Prop where
  | same : w = v → Attended input i w → Drove input i w v
  | parted : Parted input w v → Drove input i w v

/-- A call goes from await to await, at most up to a reset. -/
theorem Attended.drive {input : RunInput} {i : Nat} (h : Attended input i w) (ports : List Await)
    (hharmless : Along (World.step K) (fun w l => harmless K w l = true) w (awaited i ports)) :
    Drove input i (run (World.step K) w (awaited i ports))
      (run (World.step K) w (awaited i (ports.map Await.still))) := by
  induction ports generalizing w with
  | nil => exact .same rfl h
  | cons a rest ih =>
    obtain ⟨-, hresume, hrest⟩ := hharmless
    show Drove input i
      (run _ ((w.step K (.serve i a.behaviour)).step K (.resume i a.moment)) (awaited i rest))
      (run _ ((w.step K (.serve i a.behaviour)).step K (.resume i a.moment.still))
        (awaited i (rest.map Await.still)))
    have hserved := h.serve (K := K) a.behaviour
    rcases hserved.resume (K := K) a.moment with ⟨hsame, hnext⟩ | ⟨st, reply, d, hcall, hrenews⟩
    · rw [← hsame]
      exact ih hnext hrest
    · have hparted := hserved.parted hcall hrenews hresume
      rw [idle_awaited hparted.idle.1, idle_awaited hparted.idle.2]
      exact .parted hparted

/-! ### The successor -/

/-- A session after a reset, and the session without it. -/
structure Renewed (input : RunInput) (w v : World σ) : Prop where
  journal : w.services.journal = v.services.journal
  idle : w.idle = true ∧ v.idle = true
  view : w.process.actor.view = v.process.actor.view
  unrenewed : w.process.actor.continuedAs = none ∧ v.process.actor.continuedAs = none
  versions : w.process.actor.policyVersions = input.policyVersions
  stage : w.process.actor.activeStageId = input.initialStageId
  nodup : ((w.services.journal.eventsOf input.runId).map RuntimeEvent.eventId).Nodup
  recorded : ∀ signalType cause, cause ≠ "" → (signalCommits w.trace signalType cause).length ≤ 1
  renewed : w.renewed = true

theorem answer_projection_ok {sv : Services} (hdate : sv.UpToDate) (turns : List Turn) (runId : String) :
    ∃ p sv', sv.answer {} turns (.projection runId) = some (.ok p, sv') := by
  obtain ⟨bound, hbound⟩ := hdate runId
  have hresumes := project_resumes hbound none
  simp only at hresumes
  cases hproject : sv.project runId none with
  | error e =>
    rw [hproject] at hresumes
    cases hresumes
  | ok answer =>
    refine ⟨answer.1, answer.2, ?_⟩
    show sv.perform {} turns (.projection runId) = _
    unfold Services.perform
    simp only [hproject]

theorem idle_abandoned (h : w.idle = true) :
    (w.calls.map World.abandoned).all (fun x => x.stage?.isNone) = true := by
  refine List.all_eq_true.mpr (fun x hx => ?_)
  obtain ⟨y, hy, rfl⟩ := List.mem_map.mp hx
  have hnone := List.all_eq_true.mp h y hy
  cases y with
  | ended r => rfl
  | awaiting st => cases hnone
  | answered st reply => cases hnone

/-- The successor reads the projection and has nothing to replay. -/
theorem renew_continued (hidle : w.idle = true) (hdate : w.services.UpToDate) {input : RunInput}
    (hinput : w.process.actor.continuedAs = some input) (hversions : input.policyVersions = none)
    (hpending : input.pendingSignals = none) :
    ∃ notes, (∀ n ∈ notes, n.recorded? = none) ∧ (renew K w).idle = true ∧
      (renew K w).services.journal = w.services.journal ∧
      (renew K w).process.actor = { ({} : Actor).started input with
        lastProjection := some (foldOf w.services.journal input.runId) } ∧
      (renew K w).trace = w.trace ++ tagged w.calls.length notes := by
  obtain ⟨p, services, hanswer⟩ := answer_projection_ok hdate w.process.engine.turns input.runId
  obtain ⟨hfold, -⟩ := answer_projection hdate hanswer
  have hjournal := answer_journal hanswer
  have hlength : (w.calls.map World.abandoned).length = w.calls.length := List.length_map _
  have hcalls : ∀ x : Status, (w.calls.map World.abandoned ++ [x])[w.calls.length]? = some x := by
    intro x
    rw [← hlength, List.getElem?_concat_length]
  have hset : ∀ x y : Status, (w.calls.map World.abandoned ++ [x]).set w.calls.length y =
      w.calls.map World.abandoned ++ [y] := by
    intro x y
    rw [← hlength, List.set_append_right _ _ (Nat.le_refl _), Nat.sub_self]
    rfl
  let actor : Actor := ({} : Actor).started input
  let process : Process σ := { w.process with actor := actor }
  let restarted : World σ :=
    { w with
      process := process
      calls := w.calls.map World.abandoned ++ [.awaiting (.starting input)] }
  have hrestart : w.step K .restart = restarted := by
    unfold World.step
    simp only [hinput]
    show World.launch _ _ = restarted
    unfold World.launch tagged
    rw [List.map_nil, List.append_nil]
    rfl
  let served : World σ :=
    { restarted with
      services := services
      calls := w.calls.map World.abandoned ++ [.answered (.starting input) (.ok p)]
      trace := w.trace ++ tagged w.calls.length [.served (.starting input) (.ok p)] }
  have hserve : restarted.step K (.serve w.calls.length {}) = served := by
    unfold World.step
    simp only [restarted, hcalls]
    have hreply : w.services.answer {} process.engine.turns (Stage.starting input).request =
        some (.ok p, services) := hanswer
    rw [hreply]
    simp only [hset]
    rfl
  have hresume : served.step K (.resume w.calls.length {}) =
      served.follow w.calls.length (resume K {} process (.starting input) (.ok p)) := by
    unfold World.step
    simp only [served, hcalls]
    rfl
  have hends : resume K {} process (.starting input) (.ok p) =
      ⟨{ process with actor := { actor with lastProjection := some p } }, .end (.ok ()), []⟩ := by
    unfold Workflow.resume
    simp only [hversions]
    show handleSignals _ ([] ++ input.pendingSignals.getD []) = _
    rw [hpending]
    rfl
  have hrenew : renew K w = served.follow w.calls.length
      ⟨{ process with actor := { actor with lastProjection := some p } }, .end (.ok ()), []⟩ := by
    show (((w.step K .restart).step K (.serve w.calls.length {})).step K (.resume w.calls.length {})) = _
    rw [hrestart, hserve, hresume, hends]
  rw [hrenew]
  refine ⟨[.served (.starting input) (.ok p)], ?_, ?_, hjournal, ?_, ?_⟩
  · intro n hn
    rw [List.mem_singleton.mp hn]
    rfl
  · show ((w.calls.map World.abandoned ++ [_]).set w.calls.length _).all _ = true
    rw [hset, List.all_append, idle_abandoned hidle]
    rfl
  · rw [← hfold]
    rfl
  · show (w.trace ++ tagged w.calls.length _) ++ [] = _
    rw [List.append_nil]

theorem renewed_append (h : w.renewed = true) {w' : World σ} {entries : List (Tagged Nat Note)}
    (htrace : w'.trace = w.trace ++ entries) : w'.renewed = true := by
  unfold World.renewed at h ⊢
  rw [htrace, List.any_append, h]
  rfl

/-- **The successor shows what its predecessor showed.** -/
theorem Parted.renew {input : RunInput} (h : Parted input w v) :
    Renewed input (Workflow.renew K w) (Workflow.renew K v) := by
  have hpending : (v.process.actor.carried input.runId).pendingSignals = none := by
    unfold Actor.carried
    rw [h.pending]
    rfl
  obtain ⟨notes, hnotes, hidle, hjournal, hactor, htrace⟩ :=
    renew_continued (K := K) h.idle.1 h.services h.continuedAs rfl hpending
  rw [renew_unrenewed h.unrenewed]
  refine ⟨hjournal.trans h.journal, ⟨hidle, h.idle.2⟩, ?_, ⟨by rw [hactor]; rfl, h.unrenewed⟩, ?_, ?_, ?_,
    ?_, renewed_append h.renewed htrace⟩
  · rw [hactor, h.journal]
    unfold Actor.view
    rw [h.runId_eq, h.versions.1, h.stage.1, h.shown]
    rfl
  · rw [hactor, h.versions.2]
    rfl
  · rw [hactor, h.stage.2]
    rfl
  · rw [hjournal, h.journal]
    exact h.nodup
  · intro signalType cause hcause
    rw [htrace, signalCommits_silent hnotes]
    exact h.recorded signalType cause hcause


/-! ### The rounds of a session -/

/-- A signal that the peer check turns away changes nothing but what was heard of it. -/
theorem deliver_turned (hidle : w.idle = true) (hfresh : w.process.actor.continuedAs = none)
    {r : Arrival} (hturned : w.process.actor.authorizes r.signal = false) :
    ∃ notes, (∀ n ∈ notes, n.recorded? = none) ∧ (deliver K w r).services = w.services ∧
      (deliver K w r).idle = true ∧ (deliver K w r).process.actor.view = w.process.actor.view ∧
      (deliver K w r).process.actor.continuedAs = none ∧
      (deliver K w r).trace = w.trace ++ tagged w.calls.length notes := by
  have henter : ∃ e, enter w.process (.signal r.signal) = some e ∧ e.next = .end (.ok ()) ∧
      e.process.actor.continuedAs = none := by
    unfold enter
    simp only
    cases hrun : w.process.actor.runId? with
    | none => exact ⟨_, rfl, rfl, hfresh⟩
    | some runId =>
      refine ⟨_, rfl, ?_, ?_⟩
      · unfold handleSignals
        simp only [hrun, hturned]
        rfl
      · exact (handleSignals_continuedAs _ _).trans hfresh
  obtain ⟨e, henter, hends, hkept⟩ := henter
  have hview := enter_view henter (fun _ => by simp)
  have hnotes := enter_notes henter
  have hcall : w.step K (.call (.signal r.signal)) = w.launch e := step_entered henter
  have hrests : (w.launch e).idle = true := idle_append (by rw [hends]; rfl) hidle
  have hdelivered : deliver K w r = w.launch e := by
    show Workflow.renew K (run (World.step K) (w.step K (.call (.signal r.signal))) _) = _
    rw [hcall, idle_awaited hrests]
    exact renew_unrenewed hkept
  rw [hdelivered]
  exact ⟨e.notes, fun n hn => recorded?_ofCall (hnotes n hn), rfl, hrests, hview, hkept, rfl⟩

theorem Renewed.deliver {input : RunInput} (h : Renewed input w v) {r : Arrival}
    (hturned : w.process.actor.authorizes r.signal = false) :
    Renewed input (Workflow.deliver K w r) (Workflow.deliver K v r.still) := by
  have hturned' : v.process.actor.authorizes r.still.signal = false := by
    have hsame : w.process.actor.lastProjection = v.process.actor.lastProjection :=
      congrArg View.lastProjection h.view
    unfold Actor.authorizes at hturned ⊢
    rw [← hsame]
    exact hturned
  obtain ⟨notes, hnotes, hservices, hidle, hview, hfresh, htrace⟩ :=
    deliver_turned (K := K) h.idle.1 h.unrenewed.1 hturned
  obtain ⟨-, -, hservices', hidle', hview', hfresh', -⟩ :=
    deliver_turned (K := K) (r := r.still) h.idle.2 h.unrenewed.2 hturned'
  refine ⟨by rw [hservices, hservices', h.journal], ⟨hidle, hidle'⟩, ?_, ⟨hfresh, hfresh'⟩, ?_, ?_, ?_, ?_,
    renewed_append h.renewed htrace⟩
  · rw [hview, hview', h.view]
  · exact (congrArg View.policyVersions hview).trans h.versions
  · exact (congrArg View.activeStageId hview).trans h.stage
  · rw [hservices]
    exact h.nodup
  · intro signalType cause hcause
    rw [htrace, signalCommits_silent hnotes]
    exact h.recorded signalType cause hcause

/-- A new call of the instance. -/
theorem Attended.signal {input : RunInput} {i : Nat} (h : Attended input i w) (hidle : w.idle = true)
    (s : ActorSignal) : Attended input w.calls.length (w.step K (.call (.signal s))) := by
  have hremembered := h.remembered.step (K := K) (solo_of_alone h.alone) (l := .call (.signal s))
    (fun hl => nomatch hl)
  have henter : ∃ e, enter w.process (.signal s) = some e ∧ e.Doing input.runId w.services := by
    unfold enter
    simp only
    split
    · exact ⟨_, rfl, h.runId_eq, h.unrenewed, .ended h.issued⟩
    · exact ⟨_, rfl, handleSignals_resumed h.runId_eq h.unrenewed h.issued [s]⟩
  obtain ⟨e, henter, hdoing⟩ := henter
  have hview := enter_view henter (fun _ => by simp)
  have hcall : w.step K (.call (.signal s)) = w.launch e := step_entered henter
  rw [hcall] at hremembered ⊢
  refine ⟨?_, h.services, hremembered, hdoing.runId_eq, hdoing.unrenewed,
    (congrArg View.policyVersions hview).trans h.versions,
    (congrArg View.activeStageId hview).trans h.stage, e.next.status, List.getElem?_concat_length,
    hdoing.doing⟩
  intro k x hx hk
  have hlt : k < w.calls.length := by
    obtain ⟨hlt, -⟩ := List.getElem?_eq_some_iff.mp hx
    have hlength : (w.launch e).calls.length = w.calls.length + 1 := List.length_append
    omega
  have hold : (w.calls ++ [e.next.status])[k]? = some x := hx
  rw [List.getElem?_append_left hlt] at hold
  exact idle_stage hidle hold

/-- The first call of all. -/
theorem attended_run (journal : Journal) (store : σ) (input : RunInput)
    (hnew : journal.eventsOf input.runId = []) :
    Attended input 0 ((World.fresh journal store).step K (.call (.run input))) where
  alone := by
    intro k x hx hk
    cases k with
    | zero => exact absurd rfl hk
    | succ k => cases hx
  services := fun runId => ⟨0, upTo_default journal runId⟩
  remembered := (remembered_fresh journal store).step (solo_of_length_le_one (Nat.zero_le 1))
    (fun hl => nomatch hl)
  runId_eq := rfl
  unrenewed := rfl
  versions := rfl
  stage := rfl
  doing := ⟨_, rfl, .starting rfl hnew⟩

/-- A session, and the session without resets, between two rounds. -/
inductive Twins (input : RunInput) (w v : World σ) : Prop where
  | same {i : Nat} : w = v → Attended input i w → Twins input w v
  | renewed : Renewed input w v → Twins input w v

theorem Drove.twins {input : RunInput} {i : Nat} (h : Drove input i w v) :
    Twins input (Workflow.renew K w) (Workflow.renew K v) := by
  cases h with
  | same hsame hattended =>
    rw [← hsame, renew_unrenewed hattended.unrenewed]
    exact .same rfl hattended
  | parted hparted => exact .renewed hparted.renew

/-- Nothing that a reset loses is needed in the round. -/
def lossless (K : Kernel σ) (w : World σ) (r : Arrival) : Bool :=
  (!w.renewed || !w.process.actor.authorizes r.signal) &&
    decide (Along (World.step K) (fun w l => harmless K w l = true)
      (w.step K (.call (.signal r.signal))) (awaited w.calls.length r.ports))

theorem Twins.deliver {input : RunInput} (h : Twins input w v) (hidle : w.idle = true) {r : Arrival}
    (hlossless : lossless K w r = true) :
    Twins input (Workflow.deliver K w r) (Workflow.deliver K v r.still) := by
  unfold lossless at hlossless
  rw [Bool.and_eq_true, decide_eq_true_eq] at hlossless
  obtain ⟨hturned, hharmless⟩ := hlossless
  cases h with
  | same hsame hattended =>
    subst hsame
    exact ((hattended.signal hidle r.signal).drive r.ports hharmless).twins
  | renewed hrenewed =>
    rw [hrenewed.renewed] at hturned
    exact .renewed (hrenewed.deliver (by simpa using hturned))

theorem Twins.rounds {input : RunInput} (h : Twins input w v) (rounds : List Arrival)
    (hsequence : Along (Workflow.deliver K) (fun w _ => w.idle = true) w rounds)
    (hlossless : Along (Workflow.deliver K) (fun w r => lossless K w r = true) w rounds) :
    Twins input (run (Workflow.deliver K) w rounds)
      (run (Workflow.deliver K) v (rounds.map Arrival.still)) := by
  induction rounds generalizing w v with
  | nil => exact h
  | cons r rest ih => exact ih (h.deliver hsequence.1 hlossless.1) hsequence.2 hlossless.2

/-- **A reset that loses nothing is transparent.** A run is started over a log that has
nothing of it, and signals are delivered one after the other; the instance may continue as
new at any point. As long as it does so without policy versions, stage or signals left to
replay, and every later signal is turned away, the events have ids of their own, no signal
is recorded twice, the instance has the versions and the stage the run was started with,
and log and instance are those of the same session without any reset. -/
theorem resets_transparent (K : Kernel σ) (journal : Journal) (store : σ) (input : RunInput)
    (ports : List Await) (rounds : List Arrival) (hnew : journal.eventsOf input.runId = [])
    (hsequence : Along (deliver K) (fun w _ => w.idle = true) (opened K journal store input ports) rounds)
    (hopened : Along (World.step K) (fun w l => harmless K w l = true)
      ((World.fresh journal store).step K (.call (.run input))) (awaited 0 ports))
    (hlossless : Along (deliver K) (fun w r => lossless K w r = true) (opened K journal store input ports)
      rounds) :
    let w := run (deliver K) (opened K journal store input ports) rounds
    let v := run (deliver K) (opened K journal store input (ports.map Await.still))
      (rounds.map Arrival.still)
    ((w.services.journal.eventsOf input.runId).map RuntimeEvent.eventId).Nodup ∧
      (∀ signalType cause, cause ≠ "" → (signalCommits w.trace signalType cause).length ≤ 1) ∧
      w.process.actor.policyVersions = input.policyVersions ∧
      w.process.actor.activeStageId = input.initialStageId ∧
      w.services.journal = v.services.journal ∧ w.process.actor.view = v.process.actor.view := by
  intro w v
  have hstart : Twins input (opened K journal store input ports)
      (opened K journal store input (ports.map Await.still)) :=
    ((attended_run journal store input hnew).drive ports hopened).twins
  cases hstart.rounds rounds hsequence hlossless with
  | same hsame hattended =>
    exact ⟨hattended.issued.nodup, fun _ _ hcause => hattended.remembered.signalCommits_le _ hcause,
      hattended.versions, hattended.stage, congrArg (fun w : World σ => w.services.journal) hsame,
      congrArg (fun w : World σ => w.process.actor.view) hsame⟩
  | renewed hrenewed =>
    exact ⟨hrenewed.nodup, hrenewed.recorded, hrenewed.versions, hrenewed.stage, hrenewed.journal,
      hrenewed.view⟩

end

/-! ### Samples -/

namespace Sample

/-- A workflow that continues as new after every signal. -/
def resetting : Kernel InMemoryDedupeStore := { kernel with historyEventThreshold := 1 }

/-- Awaits in a Temporal workflow. -/
def temporal (n : Nat) : List Await := List.replicate n { moment := { inWorkflow := true } }

def versions : RunPolicyVersions := { routePolicyVersion := some "route-1", pinnedAt := "" }

/-- A signal of a run that is no child. -/
def peered : ActorSignal :=
  { signalType := "go", causedBy := some "peer", fromPeerRunId := some "peer" }

/-- A signal, and after the reset a signal that is turned away. -/
def turnedAway : List Arrival := [⟨signal, temporal 6⟩, ⟨peered, temporal 6⟩]

def unpinned : World InMemoryDedupeStore :=
  opened resetting Journal.empty Dict.empty { runId := "run" } (temporal 1)

/-- The same signal before and after a reset. -/
def repeated : List Arrival := [⟨signal, temporal 6⟩, ⟨signal, temporal 6⟩]

/-- The input of a run with policy versions. -/
def pinned : RunInput := { runId := "run", policyVersions := some versions }

def opening : World InMemoryDedupeStore :=
  opened resetting Journal.empty Dict.empty pinned (temporal 2)

end Sample

/-- A reset after which nothing is taken any more is transparent. -/
theorem turned_away_session_transparent :
    (run (deliver Sample.resetting) Sample.unpinned Sample.turnedAway).renewed = true ∧
      (run (deliver Sample.resetting) Sample.unpinned Sample.turnedAway).services.journal =
        (run (deliver Sample.resetting) (opened Sample.resetting Journal.empty Dict.empty
          { runId := "run" } ((Sample.temporal 1).map Await.still))
          (Sample.turnedAway.map Arrival.still)).services.journal := by
  refine ⟨by decide, ?_⟩
  obtain ⟨-, -, -, -, hjournal, -⟩ := resets_transparent Sample.resetting Journal.empty Dict.empty
    { runId := "run" } (Sample.temporal 1) Sample.turnedAway rfl (by decide) (by decide) (by decide)
  exact hjournal

/-- After a reset the same signal is recorded again, under the same event id, and the policy
versions are gone. -/
theorem reset_session_not_transparent :
    Along (deliver Sample.resetting) (fun w _ => w.idle = true) Sample.opening Sample.repeated ∧
      ¬ (((run (deliver Sample.resetting) Sample.opening Sample.repeated).services.journal.eventsOf
        "run").map RuntimeEvent.eventId).Nodup ∧
      ¬ (signalCommits (run (deliver Sample.resetting) Sample.opening Sample.repeated).trace "go"
        "call").length ≤ 1 ∧
      (run (deliver Sample.resetting) Sample.opening Sample.repeated).process.actor.policyVersions ≠
        Sample.pinned.policyVersions := by
  decide

end AgentKernel.Workflow
