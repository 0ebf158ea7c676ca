import AgentKernel.Runtime.Drain

/-! When a stop is safe.

One step from a sound state that is quiet once drained keeps it so exactly when the step is
admissible (`admissible_iff`), and so it is over runs (`drain_safe_iff_admissible`). An
admissible run asks for nothing of the guarded mutations but that none is caught between its
test and its count. Where that cannot happen, the whole condition is about the mutations
without a guard (`drain_safe_iff`). -/
namespace AgentKernel.Runtime
open Lib Facade

namespace KernelRuntime
variable {k : KernelRuntime}

/-! ### Waits -/

theorem Drained.draining (h : k.Drained) (hsound : k.Sound) : k.draining = true := by
  refine hsound.draining (fun hnil => ?_)
  rw [Drained, hnil] at h
  cases h

/-- What is in a list after a change at one place was there, or is what it changed to. -/
theorem mem_modify {α : Type} {l : List α} {i : Nat} {f : α → α} {a : α} (h : a ∈ l.modify i f) :
    a ∈ l ∨ ∃ b, l[i]? = some b ∧ f b = a := by
  obtain ⟨j, hj⟩ := List.mem_iff_getElem?.mp h
  rw [List.getElem?_modify] at hj
  cases hget : l[j]? with
  | none =>
    rw [hget] at hj
    cases hj
  | some b =>
    rw [hget] at hj
    simp only [Option.map_eq_map, Option.map_some, Option.some.injEq] at hj
    split at hj
    next hij => exact .inr ⟨b, hij ▸ hget, hj⟩
    · exact .inl (hj ▸ List.mem_of_getElem? hget)

/-- A wait that is taken further returns `True` only if it was about to. -/
theorem mem_modify_resume {stops : List Stop} {i : Nat} {drained : Bool}
    (h : .returned true ∈ stops.modify i (Stop.resume drained)) :
    .returned true ∈ stops ∨ ∃ stop, stops[i]? = some stop ∧ stop.Ready drained := by
  rcases mem_modify h with hold | ⟨stop, hget, hresume⟩
  · exact .inl hold
  · cases stop with
    | called timeoutMs =>
      simp only [Stop.resume] at hresume
      split at hresume
      · cases hresume
      next htime =>
        split at hresume
        next hdrained => exact .inr ⟨_, hget, by omega, hdrained⟩
        · cases hresume
    | waiting => cases hresume
    | woken => exact .inr ⟨_, hget, trivial⟩
    | returned result => exact .inl (hresume ▸ List.mem_of_getElem? hget)

theorem Stop.resume_of_ready {stop : Stop} {drained : Bool} (h : stop.Ready drained) :
    stop.resume drained = .returned true := by
  cases stop with
  | called timeoutMs =>
    obtain ⟨htime, hdrained⟩ := h
    rw [Stop.resume, if_neg (by omega), if_pos hdrained]
  | woken => rfl
  | waiting | returned => cases h

theorem mem_of_mem_modify_timeOut {stops : List Stop} {i : Nat}
    (h : .returned true ∈ stops.modify i Stop.timeOut) : .returned true ∈ stops := by
  rcases mem_modify h with hold | ⟨stop, hget, htimeOut⟩
  · exact hold
  · cases stop with
    | waiting | woken | called => cases htimeOut
    | returned result => exact htimeOut ▸ List.mem_of_getElem? hget

theorem mem_of_mem_map_wake {stops : List Stop} (h : .returned true ∈ stops.map Stop.wake) :
    .returned true ∈ stops := by
  obtain ⟨stop, hmem, hwake⟩ := List.mem_map.mp h
  cases stop with
  | waiting | called | woken => cases hwake
  | returned result => exact hwake ▸ hmem

/-! ### One step -/

/-- In a sound state all is clear when no mutation is in progress. -/
theorem clear_iff (h : k.Sound) : k.Clear ↔ k.Quiet := by
  constructor
  · intro hclear t ht
    cases hguarded : t.mutation.guarded with
    | false => exact hclear.unguarded t ht hguarded
    | true =>
      have hzero : k.inFlight = 0 := by rw [← h.counted, hclear.zero]
      have houtside := List.countP_eq_zero.mp hzero t ht
      have hentered := hclear.entered t ht
      cases hstage : t.stage with
      | entering => exact absurd hstage hentered
      | ended outcome => rfl
      | waiting | appending | exiting => simp [Task.inFlight, hguarded, hstage, Stage.isInside] at houtside
  · intro hquiet
    refine ⟨?_, ?_, fun t ht _ => hquiet t ht⟩
    · rw [h.counted]
      refine List.countP_eq_zero.mpr (fun t ht hinside => ?_)
      have hended := hquiet t ht
      cases hstage : t.stage with
      | ended outcome => simp [Task.inFlight, hstage, Stage.isInside] at hinside
      | entering | waiting | appending | exiting => simp [hstage, Stage.isEnded] at hended
    · intro t ht hstage
      have hended := hquiet t ht
      rw [hstage] at hended
      cases hended

theorem quiet_append {t : Task} (h : k.Quiet) (ht : t.stage.isEnded = true) :
    ∀ t' ∈ k.tasks ++ [t], t'.stage.isEnded = true := by
  intro t' ht'
  rcases List.mem_append.mp ht' with ht' | ht'
  · exact h t' ht'
  · rw [List.mem_singleton.mp ht']
    exact ht

/-- A quiet facade has nothing that could go on. -/
theorem resume_of_quiet (h : k.Quiet) (i : Nat) (env : Surroundings) (reply : Except Failure Answer) :
    k.resume i env reply = k := by
  unfold resume
  cases hget : k.tasks[i]? with
  | none => rfl
  | some t =>
    have hended := h t (List.mem_of_getElem? hget)
    simp only
    cases hstage : t.stage with
    | ended outcome => rfl
    | entering | waiting | appending | exiting => simp [hstage, Stage.isEnded] at hended

/-- Setting the event ends no wait. -/
theorem drained_of_resume {i : Nat} {env : Surroundings} {reply : Except Failure Answer}
    (h : (k.resume i env reply).Drained) : k.Drained := by
  unfold resume at h
  cases hget : k.tasks[i]? with
  | none =>
    rw [hget] at h
    exact h
  | some t =>
    rw [hget] at h
    simp only at h
    cases hstage : t.stage with
    | entering | waiting | appending | ended =>
      rw [hstage] at h
      exact h
    | exiting outcome =>
      rw [hstage] at h
      simp only [exit, Drained] at h
      split at h
      · exact mem_of_mem_map_wake h
      · exact h

/-- The state is quiet if a wait has returned `True`. -/
def QuietOnceDrained (k : KernelRuntime) : Prop := k.Drained → k.Quiet

/-- **A mutation issued after a wait returned `True` is turned away or refused, exactly if it
leaves the facade quiet and forwards nothing.** -/
theorem admissible_issue_iff (h : k.Sound) (hquiet : k.Quiet) (hdrained : k.Drained) (mutation : Mutation)
    (env : Surroundings) :
    (mutation.guarded = true ∨ mutation.Refused k.memory env) ↔
      (k.issue mutation env).Quiet ∧ (k.issue mutation env).forwarded = k.forwarded := by
  cases hguarded : mutation.guarded with
  | true =>
    obtain ⟨t, hissue, -, hended⟩ := issue_of_guarded k env hguarded
    rw [hissue]
    exact ⟨fun _ => ⟨quiet_append hquiet (hended (hdrained.draining h)), rfl⟩, fun _ => .inl rfl⟩
  | false =>
    rw [issue_of_unguarded k env hguarded]
    rcases mutation.start_cases k.memory env hguarded with ⟨hrefused, outcome, hends⟩ | ⟨hgoes, a, hforwards⟩
    · rw [hends]
      refine ⟨fun _ => ⟨quiet_append hquiet ?_, ?_⟩, fun _ => .inr hrefused⟩
      · simp [taskAfter, stageAfter, hguarded, Stage.isEnded]
      · exact List.append_nil _
    · rw [hforwards]
      constructor
      · rintro (hfalse | hrefused)
        · cases hfalse
        · exact absurd hrefused hgoes
      · rintro ⟨-, hsame⟩
        exact absurd (List.append_right_eq_self.mp hsame) (List.cons_ne_nil _ _)

/-- **Exactness of one step.** -/
theorem admissible_iff (h : k.Sound) (hquiet : k.QuietOnceDrained) (move : Move) :
    k.Admissible move ↔
      (k.step move).QuietOnceDrained ∧ (k.Drained → (k.step move).forwarded = k.forwarded) := by
  cases move with
  | issue mutation env =>
    have hstops : (k.issue mutation env).stops = k.stops := by
      cases hguarded : mutation.guarded with
      | true =>
        obtain ⟨t, hissue, -⟩ := issue_of_guarded k env hguarded
        rw [hissue]
      | false => rw [issue_of_unguarded k env hguarded]
    have hsame : (k.issue mutation env).Drained ↔ k.Drained := by
      unfold Drained
      rw [hstops]
    constructor
    · intro hadmissible
      refine ⟨fun hdrained => ?_, fun hdrained => ?_⟩
      · have hdrained := hsame.mp hdrained
        exact ((admissible_issue_iff h (hquiet hdrained) hdrained mutation env).mp (hadmissible hdrained)).1
      · exact ((admissible_issue_iff h (hquiet hdrained) hdrained mutation env).mp (hadmissible hdrained)).2
    · rintro ⟨hafter, hsilent⟩ hdrained
      exact (admissible_issue_iff h (hquiet hdrained) hdrained mutation env).mpr
        ⟨hafter (hsame.mpr hdrained), hsilent hdrained⟩
  | resume i env reply =>
    refine ⟨fun _ => ⟨fun hdrained => ?_, fun hdrained => ?_⟩, fun _ => trivial⟩
    · have hstill := hquiet (drained_of_resume hdrained)
      show (k.resume i env reply).Quiet
      rw [resume_of_quiet hstill]
      exact hstill
    · show (k.resume i env reply).forwarded = _
      rw [resume_of_quiet (hquiet hdrained)]
  | stop timeoutMs =>
    simp only [Admissible, step, true_iff]
    split
    · exact ⟨hquiet, fun _ => rfl⟩
    · refine ⟨fun hdrained => hquiet ?_, fun _ => rfl⟩
      rcases List.mem_append.mp hdrained with hdrained | hdrained
      · exact hdrained
      · cases List.mem_singleton.mp hdrained
  | resumeStop i =>
    constructor
    · intro hadmissible
      refine ⟨fun hdrained => ?_, fun _ => rfl⟩
      rcases mem_modify_resume hdrained with hdrained | hready
      · exact hquiet hdrained
      · exact (clear_iff h).mp (hadmissible hready)
    · rintro ⟨hafter, -⟩ ⟨stop, hget, hready⟩
      refine (clear_iff h).mpr (hafter ?_)
      have hreturned : (k.stops.modify i (Stop.resume k.coordinator.drained))[i]? = some (.returned true) := by
        rw [List.getElem?_modify_eq, hget]
        exact congrArg some (Stop.resume_of_ready hready)
      exact List.mem_of_getElem? hreturned
  | timeOut i =>
    exact ⟨fun _ => ⟨fun hdrained => hquiet (mem_of_mem_modify_timeOut hdrained), fun _ => rfl⟩,
      fun _ => trivial⟩
  | finishStop => exact ⟨fun _ => ⟨hquiet, fun _ => rfl⟩, fun _ => trivial⟩

/-! ### Runs -/

/-- A runtime that was just started, with what its facade remembers. -/
def started (memory : FacadeMemory) : KernelRuntime := { memory := memory }

theorem sound_started (memory : FacadeMemory) : (started memory).Sound where
  counted := rfl
  draining := fun h => absurd rfl h

theorem quiet_started (memory : FacadeMemory) : (started memory).QuietOnceDrained := fun _ _ ht => nomatch ht

/-- A stop is safe exactly in the runs whose steps are all admissible. -/
theorem drain_safe_iff_admissible (memory : FacadeMemory) (moves : List Move) :
    DrainSafe (started memory) moves ↔ Along step Admissible (started memory) moves := by
  have hsound : ∀ pre, (run step (started memory) pre).Sound :=
    run_invariant (fun _ move h => h.step move) (sound_started memory)
  constructor
  · intro hsafe
    refine along_iff_forall_prefix.mpr (fun pre move hpre => ?_)
    have hbefore := hsafe.quiet pre ((List.prefix_append pre [move]).trans hpre)
    have hafter := hsafe.quiet _ hpre
    have hsilent := hsafe.silent pre move hpre
    rw [run_append] at hafter hsilent
    exact (admissible_iff (hsound pre) hbefore move).mpr ⟨hafter, hsilent⟩
  · intro halong
    have hquiet : ∀ pre, pre <+: moves → (run step (started memory) pre).QuietOnceDrained := by
      rintro pre ⟨rest, rfl⟩
      have hkeeps := run_invariant_along (I := fun k => k.Sound ∧ k.QuietOnceDrained)
        (fun k move hadmissible hI => ⟨hI.1.step move, ((admissible_iff hI.1 hI.2 move).mp hadmissible).1⟩)
        ⟨sound_started memory, quiet_started memory⟩ pre (along_append.mp halong).1
      exact hkeeps.2
    refine ⟨fun pre _ => (hsound pre).counted, hquiet, fun pre move hpre hdrained => ?_⟩
    have hadmissible := along_iff_forall_prefix.mp halong pre move hpre
    have hbefore := hquiet pre ((List.prefix_append pre [move]).trans hpre)
    rw [run_append]
    exact ((admissible_iff (hsound pre) hbefore move).mp hadmissible).2 hdrained

/-! ### Where the lock is free -/

/-- The flag is not raised between the test of a mutation and its count. -/
def Prompt (k : KernelRuntime) : Move → Prop
  | .stop _ => ∀ t ∈ k.tasks, t.stage ≠ .entering
  | _ => True

/-- No unguarded mutation is in progress when a wait returns `True`, and after that none is
issued, unless it is refused on the spot. -/
def Bystanding (k : KernelRuntime) : Move → Prop
  | .issue mutation env => k.Drained → mutation.guarded = true ∨ mutation.Refused k.memory env
  | .resumeStop i => k.Ready i → ∀ t ∈ k.tasks, t.mutation.guarded = false → t.stage.isEnded = true
  | .resume .. | .stop _ | .timeOut _ | .finishStop => True

/-- Whoever waits finds nothing at the counter, and is woken only when it is at zero. -/
structure Settled (k : KernelRuntime) : Prop where
  sound : k.Sound
  entered : k.stops ≠ [] → ∀ t ∈ k.tasks, t.stage ≠ .entering
  woken : .woken ∈ k.stops → k.coordinator.inFlightCount = 0

namespace Settled

theorem issue (h : k.Settled) (mutation : Mutation) (env : Surroundings) :
    (k.issue mutation env).Settled := by
  have hsound := h.sound.issue mutation env
  cases hguarded : mutation.guarded with
  | true =>
    obtain ⟨t, hissue, -, hended⟩ := issue_of_guarded k env hguarded
    rw [hissue] at hsound ⊢
    refine ⟨hsound, fun hstops t' ht' => ?_, h.woken⟩
    rcases List.mem_append.mp ht' with ht' | ht'
    · exact h.entered hstops t' ht'
    · intro hstage
      have hend := hended (h.sound.draining hstops)
      rw [← List.mem_singleton.mp ht', hstage] at hend
      cases hend
  | false =>
    rw [issue_of_unguarded k env hguarded] at hsound ⊢
    refine ⟨hsound, fun hstops t' ht' => ?_, h.woken⟩
    rcases List.mem_append.mp ht' with ht' | ht'
    · exact h.entered hstops t' ht'
    · intro hstage
      have hguard := t'.guards (by rw [hstage]; rfl)
      rw [List.mem_singleton.mp ht'] at hguard
      exact Bool.false_ne_true (hguarded.symm.trans hguard)

theorem entered_set {t : Task} (h : ∀ t ∈ k.tasks, t.stage ≠ .entering) (i : Nat)
    (ht : t.stage ≠ .entering) : ∀ t' ∈ k.tasks.set i t, t'.stage ≠ .entering := by
  intro t' ht'
  rcases List.mem_or_eq_of_mem_set ht' with ht' | rfl
  · exact h t' ht'
  · exact ht

theorem stageAfter_ne_entering (mutation : Mutation) (segment : Segment) :
    (taskAfter mutation segment).stage ≠ .entering := by
  intro hstage
  cases segment with
  | forwards a => cases hstage
  | appends commit => cases hstage
  | ends outcome =>
    simp only [taskAfter, stageAfter] at hstage
    split at hstage
    · cases hstage
    · cases hstage

theorem resume (h : k.Settled) (i : Nat) (env : Surroundings) (reply : Except Failure Answer) :
    (k.resume i env reply).Settled := by
  have hsound := h.sound.resume i env reply
  unfold KernelRuntime.resume at hsound ⊢
  cases hget : k.tasks[i]? with
  | none => exact h
  | some t =>
    rw [hget] at hsound
    simp only at hsound ⊢
    cases hstage : t.stage with
    | entering =>
      rw [hstage] at hsound
      -- Nothing is at the counter while somebody waits.
      have hnil : k.stops = [] := by
        by_contra hstops
        exact h.entered hstops t (List.mem_of_getElem? hget) hstage
      refine ⟨hsound, fun hstops => absurd hnil hstops, fun hwoken => ?_⟩
      have hnone : .woken ∈ k.stops := hwoken
      rw [hnil] at hnone
      cases hnone
    | waiting | appending =>
      rw [hstage] at hsound
      exact ⟨hsound, fun hstops => entered_set (h.entered hstops) i (stageAfter_ne_entering _ _), h.woken⟩
    | exiting outcome =>
      rw [hstage] at hsound
      refine ⟨hsound, fun hstops => entered_set (h.entered (fun hnil => hstops ?_)) i (fun h => nomatch h), ?_⟩
      · simp only [KernelRuntime.exit, hnil, List.map_nil, ite_self]
      · intro hwoken
        show k.coordinator.inFlightCount - 1 = 0
        simp only [KernelRuntime.exit] at hwoken
        split at hwoken
        next hzero => exact hzero
        · rw [h.woken hwoken]
    | ended outcome => exact h

/-- Nobody is woken by going on or by giving up. -/
theorem woken_of_modify {stops : List Stop} {i : Nat} {f : Stop → Stop} (hf : ∀ stop, f stop ≠ .woken)
    (h : .woken ∈ stops.modify i f) : .woken ∈ stops := by
  rcases mem_modify h with hold | ⟨stop, -, hwoken⟩
  · exact hold
  · exact absurd hwoken (hf stop)

theorem resume_ne_woken (drained : Bool) (stop : Stop) : stop.resume drained ≠ .woken := by
  intro hwoken
  cases stop with
  | called timeoutMs =>
    simp only [Stop.resume] at hwoken
    split at hwoken
    · cases hwoken
    · split at hwoken
      · cases hwoken
      · cases hwoken
  | waiting | woken | returned => cases hwoken

theorem timeOut_ne_woken (stop : Stop) : stop.timeOut ≠ .woken := by
  intro hwoken
  cases stop with
  | called | waiting | woken | returned => cases hwoken

theorem modify (h : k.Settled) (i : Nat) {f : Stop → Stop} (hf : ∀ stop, f stop ≠ .woken)
    (hsound : Sound { k with stops := k.stops.modify i f }) :
    Settled { k with stops := k.stops.modify i f } := by
  refine ⟨hsound, fun hstops => h.entered (fun hnil => hstops ?_), fun hwoken => h.woken (woken_of_modify hf hwoken)⟩
  simp [hnil]

theorem step (h : k.Settled) (move : Move) (hprompt : k.Prompt move) : (k.step move).Settled := by
  have hsound := h.sound.step move
  cases move with
  | issue mutation env => exact h.issue mutation env
  | resume i env reply => exact h.resume i env reply
  | stop timeoutMs =>
    simp only [KernelRuntime.step] at hsound ⊢
    split at hsound
    next hstopped =>
      rw [if_pos hstopped]
      exact h
    next hstopped =>
      rw [if_neg hstopped]
      refine ⟨hsound, fun _ => hprompt, fun hwoken => ?_⟩
      rcases List.mem_append.mp hwoken with hwoken | hwoken
      · exact h.woken hwoken
      · cases List.mem_singleton.mp hwoken
  | resumeStop i => exact h.modify i (resume_ne_woken _) hsound
  | timeOut i => exact h.modify i timeOut_ne_woken hsound
  | finishStop => exact ⟨hsound, h.entered, h.woken⟩

/-- What is left to ask of a step. -/
theorem admissible_iff_bystanding (h : k.Settled) (move : Move) : k.Admissible move ↔ k.Bystanding move := by
  cases move with
  | resumeStop i =>
    refine ⟨fun hadmissible hready => (hadmissible hready).unguarded, ?_⟩
    rintro hbystanding ⟨stop, hget, hready⟩
    have hmem := List.mem_of_getElem? hget
    refine ⟨?_, h.entered (List.ne_nil_of_mem hmem), hbystanding ⟨stop, hget, hready⟩⟩
    cases stop with
    | called timeoutMs => exact k.coordinator.agrees.mp hready.2
    | woken => exact h.woken hmem
    | waiting | returned => cases hready
  | issue | resume | stop | timeOut | finishStop => exact Iff.rfl

end Settled

theorem settled_started (memory : FacadeMemory) : (started memory).Settled where
  sound := sound_started memory
  entered := fun h => absurd rfl h
  woken := fun h => nomatch h

/-- Where nothing comes between a test and its count, a stop is safe exactly if the
mutations without a guard keep out of its way. -/
theorem drain_safe_iff_bystanding (memory : FacadeMemory) {moves : List Move}
    (h : Along step Prompt (started memory) moves) :
    DrainSafe (started memory) moves ↔ Along step Bystanding (started memory) moves := by
  rw [drain_safe_iff_admissible]
  exact Along.congr_of_invariant (fun k move hprompt hsettled => hsettled.step move hprompt)
    (fun k move _ hsettled => hsettled.admissible_iff_bystanding move) (settled_started memory) h

/-- **When a stop is safe.** Where the flag is never raised between a test and its count,
exactly when the mutations without a guard keep out of its way: none is in progress when a
wait returns `True`, and none is issued after that. In every other run all else has to be
clear as well when a wait returns `True`. -/
theorem drain_safe_iff (memory : FacadeMemory) (moves : List Move) :
    (Along step Prompt (started memory) moves →
      (DrainSafe (started memory) moves ↔ Along step Bystanding (started memory) moves)) ∧
    (DrainSafe (started memory) moves ↔ Along step Admissible (started memory) moves) :=
  ⟨fun hprompt => drain_safe_iff_bystanding memory hprompt, drain_safe_iff_admissible memory moves⟩

/-- A start that is issued once the wait has returned `True` is forwarded. -/
theorem drained_start_forwarded :
    ¬ DrainSafe (started {})
      [.stop 30000, .resumeStop 0, .issue (.startRun { runKind := "chat" } none) {}] := by
  intro h
  have hsilent := h.silent [.stop 30000, .resumeStop 0] _ List.prefix_rfl (by unfold Drained; decide)
  exact absurd hsilent (List.cons_ne_nil _ _)

end KernelRuntime
end AgentKernel.Runtime
