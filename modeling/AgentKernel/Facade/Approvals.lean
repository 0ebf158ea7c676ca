import AgentKernel.Facade.Registry

/-! Approvals and a gateway that may fail.

`submit_approval` marks the approval as submitted and the gate as resolved before it
awaits the signal, and takes neither back. So while the signal is under way, and for good
when it fails, the gate counts as resolved without a delivery and the approval as a
duplicate of itself; and a run that was evicted in between forgets an approval that was
delivered. A history of submissions is faithful exactly when every approval gets through
when it is first submitted, and is submitted again only while its run has not been evicted
since (`approvals_faithful_iff`). -/
namespace AgentKernel.Facade
open Lib

/-! ### One submission -/

def resolutionOf (approved : Bool) : Resolution := if approved then .approved else .rejected

/-- The record with the approval as given. -/
def RunRecord.withApproval (record : RunRecord) (request : ApprovalRequest) : RunRecord :=
  { record with
    submittedApprovals := insertText request.approvalRef record.submittedApprovals
    resolvedHumanGates := insertText request.approvalRef record.resolvedHumanGates
    gateResolutions := record.gateResolutions.set request.approvalRef (resolutionOf request.approved) }

/-- `submit_approval` up to the signal it awaits, if it sends one. -/
def beginApproval (r : Registry) (request : ApprovalRequest) : Registry × Option SignalRunRequest :=
  let r := r.touchRun request.runId
  let record := r.of request.runId
  if request.approvalRef ∈ record.submittedApprovals then (r, none)
  else
    (r.update request.runId (record.withApproval request),
      some (Notification.submitApproval request).request)

/-- A call, and how its signal ends if it sends one. -/
structure Submission where
  request : ApprovalRequest
  signal : Except PyError Unit

def Submission.key (s : Submission) : String × String := (s.request.runId, s.request.approvalRef)

/-- A facade, and the approvals whose signal got through. -/
structure Desk where
  registry : Registry
  delivered : List (String × String) := []

namespace Desk

/-- A new facade. -/
def opened (maxTrackedRuns : Nat) : Desk :=
  { registry := { maxTrackedRuns := maxTrackedRuns } }

/-- `submit_approval`: nothing is taken back when the signal fails. -/
def submitApproval (d : Desk) (s : Submission) : Desk × Except PyError Unit :=
  match beginApproval d.registry s.request with
  | (registry, none) => ({ d with registry := registry }, .ok ())
  | (registry, some _) =>
    match s.signal with
    | .ok () =>
      ({ registry := registry
         delivered := s.key :: d.delivered }, .ok ())
    | .error e =>
      ({ d with registry := registry }, .error e)

def next (d : Desk) (s : Submission) : Desk := (d.submitApproval s).1

/-! ### What is asked of a history -/

/-- A gate that counts as resolved was delivered, and nothing was delivered twice. -/
structure Faithful (d : Desk) : Prop where
  resolved : ∀ runId ref, ref ∈ (d.registry.of runId).resolvedHumanGates → (runId, ref) ∈ d.delivered
  once : d.delivered.Nodup

/-- After the call the facade is faithful, and if the call raised, the same call would
forward the signal. -/
structure Settled (d : Desk) (s : Submission) : Prop where
  faithful : (d.next s).Faithful
  repeatable : ∀ e, (d.submitApproval s).2 = .error e →
    (beginApproval (d.next s).registry s.request).2 ≠ none

/-- The call finds its approval submitted. -/
def Duplicate (d : Desk) (s : Submission) : Prop :=
  s.request.approvalRef ∈
    ((d.registry.touchRun s.request.runId).of s.request.runId).submittedApprovals

instance (d : Desk) (s : Submission) : Decidable (d.Duplicate s) := inferInstanceAs (Decidable (_ ∈ _))

/-- The call does not evict the run. -/
def Spares (runId : String) (d : Desk) (s : Submission) : Prop :=
  ¬ d.registry.Evicts s.request.runId runId

instance (runId : String) (d : Desk) (s : Submission) : Decidable (Spares runId d s) :=
  inferInstanceAs (Decidable (¬ _))

/-- The approval was submitted, and its run spared by every call since. -/
def Remembered (maxTrackedRuns : Nat) (runId ref : String) (history : List Submission) : Prop :=
  Since Desk.next (fun _ s => s.key = (runId, ref)) (Spares runId) (opened maxTrackedRuns) history

/-- A call after others: its approval was submitted before, and its run was not evicted
since, by the call itself neither; or it is the first to submit its approval, and its signal
gets through; or it is not the first, its signal fails, and the facade keeps no run. -/
def Safe (maxTrackedRuns : Nat) (before : List Submission) (s : Submission) : Prop :=
  (Remembered maxTrackedRuns s.request.runId s.request.approvalRef before ∧
      Spares s.request.runId (run Desk.next (opened maxTrackedRuns) before) s) ∨
    (s.signal = .ok () ∧ ∀ s' ∈ before, s'.key ≠ s.key) ∨
    (∃ e, s.signal = .error e) ∧ (∃ s' ∈ before, s'.key = s.key) ∧ maxTrackedRuns = 0

/-! ### One step -/

/-- What holds between the calls: an approval is submitted when its gate is resolved, no run
is tracked twice, and without a run to track none is tracked. -/
structure Linked (d : Desk) : Prop where
  submitted : ∀ runId ref, ref ∈ (d.registry.of runId).submittedApprovals ↔
    ref ∈ (d.registry.of runId).resolvedHumanGates
  tracked : d.registry.trackedRunOrder.Nodup
  untracked : d.registry.maxTrackedRuns = 0 → d.registry.trackedRunOrder = []

theorem submit_duplicate {d : Desk} {s : Submission} (h : d.Duplicate s) :
    d.submitApproval s = ({ d with registry := d.registry.touchRun s.request.runId }, .ok ()) := by
  have hbegin : beginApproval d.registry s.request = (d.registry.touchRun s.request.runId, none) :=
    if_pos h
  simp only [submitApproval, hbegin]

/-- The registry while the signal is awaited. -/
def forwarding (d : Desk) (s : Submission) : Registry :=
  (d.registry.touchRun s.request.runId).update s.request.runId
    (((d.registry.touchRun s.request.runId).of s.request.runId).withApproval s.request)

theorem begin_of_not_duplicate {d : Desk} {s : Submission} (h : ¬ d.Duplicate s) :
    beginApproval d.registry s.request =
      (d.forwarding s, some (Notification.submitApproval s.request).request) :=
  if_neg h

theorem submit_delivered {d : Desk} {s : Submission} (h : ¬ d.Duplicate s) (hsignal : s.signal = .ok ()) :
    d.submitApproval s = (⟨d.forwarding s, s.key :: d.delivered⟩, .ok ()) := by
  simp only [submitApproval, begin_of_not_duplicate h, hsignal]

theorem submit_raised {d : Desk} {s : Submission} (h : ¬ d.Duplicate s) {e : PyError}
    (hsignal : s.signal = .error e) :
    d.submitApproval s = ({ d with registry := d.forwarding s }, .error e) := by
  simp only [submitApproval, begin_of_not_duplicate h, hsignal]

/-- What counts as resolved while the signal is awaited: the approval itself, and what did
before. -/
theorem mem_forwarding {d : Desk} {s : Submission} {runId ref : String} :
    ref ∈ ((d.forwarding s).of runId).resolvedHumanGates ↔
      (runId, ref) = s.key ∨
        ref ∈ ((d.registry.touchRun s.request.runId).of runId).resolvedHumanGates := by
  unfold forwarding
  rw [Registry.of_update]
  by_cases hrun : runId = s.request.runId
  · subst hrun
    rw [if_pos rfl]
    simp only [RunRecord.withApproval, mem_insertText, Submission.key, Prod.mk.injEq, true_and]
  · rw [if_neg hrun]
    simp only [Submission.key, Prod.mk.injEq, hrun, false_and, false_or]

theorem mem_forwarding_submitted {d : Desk} {s : Submission} {runId ref : String} :
    ref ∈ ((d.forwarding s).of runId).submittedApprovals ↔
      (runId, ref) = s.key ∨
        ref ∈ ((d.registry.touchRun s.request.runId).of runId).submittedApprovals := by
  unfold forwarding
  rw [Registry.of_update]
  by_cases hrun : runId = s.request.runId
  · subst hrun
    rw [if_pos rfl]
    simp only [RunRecord.withApproval, mem_insertText, Submission.key, Prod.mk.injEq, true_and]
  · rw [if_neg hrun]
    simp only [Submission.key, Prod.mk.injEq, hrun, false_and, false_or]

/-- A touch resolves nothing. -/
theorem resolved_of_touch {r : Registry} {touched runId ref : String}
    (h : ref ∈ ((r.touchRun touched).of runId).resolvedHumanGates) :
    ref ∈ (r.of runId).resolvedHumanGates := by
  rcases r.of_touchRun touched runId with hsame | hpurged
  · exact hsame ▸ h
  · rw [hpurged] at h
    exact absurd h List.not_mem_nil

theorem submitted_touch {d : Desk} (h : d.Linked) (touched runId ref : String) :
    ref ∈ ((d.registry.touchRun touched).of runId).submittedApprovals ↔
      ref ∈ ((d.registry.touchRun touched).of runId).resolvedHumanGates := by
  rcases d.registry.of_touchRun touched runId with hsame | hpurged
  · rw [hsame]
    exact h.submitted runId ref
  · rw [hpurged]

theorem untracked_touch {d : Desk} (h : d.Linked) (touched : String)
    (hmax : d.registry.maxTrackedRuns = 0) : (d.registry.touchRun touched).trackedRunOrder = [] := by
  have hempty := h.untracked hmax
  unfold Registry.touchRun
  rw [hempty, if_neg List.not_mem_nil, List.nil_append]
  simp [Registry.evictOldestRuns, hmax]

/-- The registry after a call: touched only, or with the approval. -/
theorem registry_next (d : Desk) (s : Submission) :
    (d.next s).registry =
      if d.Duplicate s then d.registry.touchRun s.request.runId else d.forwarding s := by
  unfold Desk.next
  by_cases hduplicate : d.Duplicate s
  · rw [submit_duplicate hduplicate, if_pos hduplicate]
  · rw [if_neg hduplicate]
    cases hsignal : s.signal with
    | ok u => rw [submit_delivered hduplicate hsignal]
    | error e => rw [submit_raised hduplicate hsignal]

theorem Linked.next {d : Desk} (h : d.Linked) (s : Submission) : (d.next s).Linked := by
  refine ⟨fun runId ref => ?_, ?_, fun hmax => ?_⟩
  · rw [registry_next]
    split
    · exact submitted_touch h s.request.runId runId ref
    · rw [mem_forwarding, mem_forwarding_submitted, submitted_touch h]
  · rw [registry_next]
    split <;> exact Registry.nodup_touchRun h.tracked s.request.runId
  · rw [registry_next] at hmax ⊢
    split at hmax <;> rename_i hcase
    · rw [if_pos hcase]
      exact untracked_touch h s.request.runId (by simpa using hmax)
    · rw [if_neg hcase]
      exact untracked_touch h s.request.runId (by simpa [forwarding] using hmax)

/-- The same call finds itself submitted, unless the facade keeps no run. -/
theorem repeat_forwards_iff {d : Desk} (h : d.Linked) (s : Submission) :
    (beginApproval (d.forwarding s) s.request).2 ≠ none ↔ d.registry.maxTrackedRuns = 0 := by
  have hmem : s.request.approvalRef ∈ ((d.forwarding s).of s.request.runId).submittedApprovals :=
    mem_forwarding_submitted.mpr (.inl rfl)
  constructor
  · intro hforwards
    by_contra hmax
    apply hforwards
    have htracked : s.request.runId ∈ (d.forwarding s).trackedRunOrder :=
      Registry.touchRun_tracked d.registry s.request.runId (Nat.pos_of_ne_zero hmax)
    simp only [beginApproval, Registry.touchRun_of_mem htracked, if_pos hmem]
  · intro hmax
    have horder : (d.forwarding s).trackedRunOrder = [] := untracked_touch h s.request.runId hmax
    have hmaxf : (d.forwarding s).maxTrackedRuns = 0 := by simpa [forwarding] using hmax
    have hpurged : ((d.forwarding s).touchRun s.request.runId).of s.request.runId = {} := by
      unfold Registry.touchRun
      rw [horder, if_neg List.not_mem_nil]
      exact Registry.of_evictOldestRuns_zero _ _ hmaxf _ (by simp)
    simp only [beginApproval, hpurged, if_neg List.not_mem_nil]
    exact Option.some_ne_none _

/-- **When a step is settled**: the call is a duplicate; or its signal gets through, for the
first time; or it fails after the approval was delivered, in a facade that keeps no run. -/
theorem settled_iff {d : Desk} (hlinked : d.Linked) (hfaithful : d.Faithful) (s : Submission) :
    d.Settled s ↔ d.Duplicate s ∨ (s.signal = .ok () ∧ s.key ∉ d.delivered) ∨
      (∃ e, s.signal = .error e) ∧ s.key ∈ d.delivered ∧ d.registry.maxTrackedRuns = 0 := by
  have hold : ∀ runId ref, ref ∈ ((d.registry.touchRun s.request.runId).of runId).resolvedHumanGates →
      (runId, ref) ∈ d.delivered :=
    fun runId ref h => hfaithful.resolved runId ref (resolved_of_touch h)
  by_cases hduplicate : d.Duplicate s
  · have hsubmit := submit_duplicate hduplicate
    refine ⟨fun _ => .inl hduplicate, fun _ => ⟨⟨?_, ?_⟩, ?_⟩⟩
    · rw [Desk.next, hsubmit]
      exact hold
    · rw [Desk.next, hsubmit]
      exact hfaithful.once
    · intro e he
      rw [hsubmit] at he
      cases he
  · cases hsignal : s.signal with
    | ok u =>
      have hsubmit := submit_delivered hduplicate hsignal
      constructor
      · intro h
        have honce := h.faithful.once
        rw [Desk.next, hsubmit, List.nodup_cons] at honce
        exact .inr (.inl ⟨rfl, honce.1⟩)
      · intro h
        rcases h with h | ⟨_, hnew⟩ | ⟨⟨e, he⟩, _⟩
        · exact absurd h hduplicate
        · refine ⟨⟨?_, ?_⟩, ?_⟩
          · rw [Desk.next, hsubmit]
            intro runId ref hmem
            rcases mem_forwarding.mp hmem with hkey | hmem
            · rw [hkey]
              exact List.mem_cons_self
            · exact List.mem_cons_of_mem _ (hold runId ref hmem)
          · rw [Desk.next, hsubmit]
            exact List.nodup_cons.mpr ⟨hnew, hfaithful.once⟩
          · intro e he
            rw [hsubmit] at he
            cases he
        · cases he
    | error e =>
      have hsubmit := submit_raised hduplicate hsignal
      have hrepeat := repeat_forwards_iff hlinked s
      constructor
      · intro h
        refine .inr (.inr ⟨⟨e, rfl⟩, ?_, ?_⟩)
        · have hresolved := h.faithful.resolved s.request.runId s.request.approvalRef
          rw [Desk.next, hsubmit] at hresolved
          exact hresolved (mem_forwarding.mpr (.inl rfl))
        · have hagain := h.repeatable e (by rw [hsubmit])
          rw [Desk.next, hsubmit] at hagain
          exact hrepeat.mp hagain
      · intro h
        rcases h with h | ⟨hok, _⟩ | ⟨_, hdelivered, hmax⟩
        · exact absurd h hduplicate
        · cases hok
        · refine ⟨⟨?_, ?_⟩, ?_⟩
          · rw [Desk.next, hsubmit]
            intro runId ref hmem
            rcases mem_forwarding.mp hmem with hkey | hmem
            · rw [hkey]
              exact hdelivered
            · exact hold runId ref hmem
          · rw [Desk.next, hsubmit]
            exact hfaithful.once
          · intro _ _
            rw [Desk.next, hsubmit]
            exact hrepeat.mpr hmax

/-! ### Histories -/

theorem maxTrackedRuns_next (d : Desk) (s : Submission) :
    (d.next s).registry.maxTrackedRuns = d.registry.maxTrackedRuns := by
  rw [registry_next]
  split <;> exact Registry.maxTrackedRuns_touchRun _ _

theorem maxTrackedRuns_run (maxTrackedRuns : Nat) (history : List Submission) :
    (run Desk.next (opened maxTrackedRuns) history).registry.maxTrackedRuns = maxTrackedRuns :=
  run_invariant (I := fun d => d.registry.maxTrackedRuns = maxTrackedRuns)
    (fun d s hd => (maxTrackedRuns_next d s).trans hd) rfl history

theorem linked_run (maxTrackedRuns : Nat) (history : List Submission) :
    (run Desk.next (opened maxTrackedRuns) history).Linked :=
  run_invariant (I := Linked) (fun _ s hd => hd.next s)
    ⟨fun _ _ => Iff.rfl, List.nodup_nil, fun _ => rfl⟩ history

/-- What is submitted after the touch. -/
theorem mem_touched_submitted {d : Desk} (h : d.Linked) (s : Submission) (runId ref : String) :
    ref ∈ ((d.registry.touchRun s.request.runId).of runId).submittedApprovals ↔
      ref ∈ (d.registry.of runId).submittedApprovals ∧ Spares runId d s := by
  rw [Registry.of_touchRun_eq h.tracked]
  unfold Spares
  split
  · rename_i hevicted
    exact iff_of_false List.not_mem_nil (fun hmem => hmem.2 hevicted)
  · rename_i hspared
    exact (and_iff_left hspared).symm

/-- A call submits its own approval, and keeps those of the runs it spares. -/
theorem mem_next_submitted {d : Desk} (h : d.Linked) (s : Submission) (runId ref : String) :
    ref ∈ ((d.next s).registry.of runId).submittedApprovals ↔
      s.key = (runId, ref) ∨ ref ∈ (d.registry.of runId).submittedApprovals ∧ Spares runId d s := by
  rw [← mem_touched_submitted h, eq_comm, registry_next]
  split
  · rename_i hduplicate
    refine ⟨.inr, fun hmem => hmem.elim (fun hkey => ?_) id⟩
    obtain ⟨rfl, rfl⟩ := Prod.mk.inj hkey
    exact hduplicate
  · exact mem_forwarding_submitted

/-- **The facade knows the approvals that were submitted while their runs were spared.** -/
theorem submitted_iff_remembered (maxTrackedRuns : Nat) (runId ref : String) (history : List Submission) :
    ref ∈ ((run Desk.next (opened maxTrackedRuns) history).registry.of runId).submittedApprovals ↔
      Remembered maxTrackedRuns runId ref history := by
  induction history using List.reverseRecOn with
  | nil => exact iff_of_false List.not_mem_nil not_since_nil
  | append_singleton history s ih =>
    rw [run_append, Remembered, since_append, ← Remembered, ← ih]
    exact mem_next_submitted (linked_run maxTrackedRuns history) s runId ref

/-- A settled call's approval has been delivered, and nothing else is delivered with it. -/
theorem mem_next_delivered {d : Desk} {s : Submission} (hlinked : d.Linked) (h : d.Settled s)
    (key : String × String) : key ∈ (d.next s).delivered ↔ key = s.key ∨ key ∈ d.delivered := by
  have hown : s.key ∈ (d.next s).delivered := by
    refine h.faithful.resolved _ _ (((hlinked.next s).submitted _ _).mp ?_)
    exact (mem_next_submitted hlinked s _ _).mpr (.inl rfl)
  have hothers : (d.next s).delivered = d.delivered ∨ (d.next s).delivered = s.key :: d.delivered := by
    unfold Desk.next
    by_cases hduplicate : d.Duplicate s
    · rw [submit_duplicate hduplicate]
      exact .inl rfl
    · cases hsignal : s.signal with
      | ok u =>
        rw [submit_delivered hduplicate hsignal]
        exact .inr rfl
      | error e =>
        rw [submit_raised hduplicate hsignal]
        exact .inl rfl
  rcases hothers with hsame | hnew
  · rw [hsame] at hown ⊢
    exact ⟨.inr, fun hmem => hmem.elim (fun hkey => hkey ▸ hown) id⟩
  · rw [hnew]
    exact List.mem_cons

/-- In a history that stays settled, an approval is delivered when it is submitted. -/
theorem settled_run {maxTrackedRuns : Nat} {history : List Submission}
    (h : Along Desk.next Settled (opened maxTrackedRuns) history) :
    (run Desk.next (opened maxTrackedRuns) history).Faithful ∧
      ∀ key, key ∈ (run Desk.next (opened maxTrackedRuns) history).delivered ↔
        ∃ s ∈ history, s.key = key := by
  induction history using List.reverseRecOn with
  | nil =>
    refine ⟨⟨fun _ _ hmem => absurd hmem List.not_mem_nil, List.nodup_nil⟩, fun key => ?_⟩
    exact iff_of_false List.not_mem_nil (fun ⟨_, hmem, _⟩ => absurd hmem List.not_mem_nil)
  | append_singleton history s ih =>
    obtain ⟨hhistory, hs, -⟩ := along_append.mp h
    rw [run_append]
    refine ⟨hs.faithful, fun key => ?_⟩
    rw [run_cons, run_nil, mem_next_delivered (linked_run maxTrackedRuns history) hs, (ih hhistory).2]
    simp only [List.mem_append, List.mem_singleton, or_and_right, exists_or, exists_eq_left]
    rw [or_comm, eq_comm]

/-- A call after a history that stayed settled is settled exactly when it is safe. -/
theorem settled_iff_safe {maxTrackedRuns : Nat} {history : List Submission}
    (h : Along Desk.next Settled (opened maxTrackedRuns) history) (s : Submission) :
    (run Desk.next (opened maxTrackedRuns) history).Settled s ↔ Safe maxTrackedRuns history s := by
  have hlinked := linked_run maxTrackedRuns history
  obtain ⟨hfaithful, hdelivered⟩ := settled_run h
  rw [settled_iff hlinked hfaithful, hdelivered, maxTrackedRuns_run]
  unfold Safe Duplicate
  rw [mem_touched_submitted hlinked, submitted_iff_remembered]
  simp only [not_exists, not_and, ne_eq]

end Desk

/-- **When approvals survive a failing gateway.** After every call of a history the
facade is faithful, and every call that raised can be repeated, exactly when every call
is safe where it is made. While a signal is awaited its gate counts as resolved in any
case. -/
theorem approvals_faithful_iff (maxTrackedRuns : Nat) (history : List Submission) :
    (Along Desk.next Desk.Settled (Desk.opened maxTrackedRuns) history ↔
      ∀ before s, before ++ [s] <+: history → Desk.Safe maxTrackedRuns before s) ∧
    ∀ s signal, (beginApproval (run Desk.next (Desk.opened maxTrackedRuns) history).registry s).2 =
        some signal →
      s.approvalRef ∈ ((beginApproval (run Desk.next (Desk.opened maxTrackedRuns) history).registry
        s).1.of s.runId).resolvedHumanGates := by
  refine ⟨along_iff_history (fun _ s h => Desk.settled_iff_safe h s) history, fun request signal hsends => ?_⟩
  generalize run Desk.next (Desk.opened maxTrackedRuns) history = d at hsends ⊢
  let s : Submission := ⟨request, .ok ()⟩
  by_cases hduplicate : d.Duplicate s
  · have hbegin : (beginApproval d.registry request).2 = none := by
      unfold beginApproval
      exact congrArg Prod.snd (if_pos hduplicate)
    rw [hbegin] at hsends
    cases hsends
  · have hbegin : beginApproval d.registry request = (d.forwarding s, _) :=
      Desk.begin_of_not_duplicate hduplicate
    rw [hbegin]
    exact Desk.mem_forwarding.mpr (.inl rfl)

namespace Sample

def approval : ApprovalRequest :=
  { runId := "run"
    approvalRef := "gate"
    approved := true
    reviewerId := "reviewer" }

def delivered : Submission := ⟨approval, .ok ()⟩

def lost : Submission := ⟨approval, .error ⟨.other "ConnectionError", "gateway down"⟩⟩

end Sample

/-- An approval that is delivered and then submitted again. -/
theorem delivered_once :
    Along Desk.next Desk.Settled (Desk.opened 1) [Sample.delivered, Sample.delivered] := by
  refine (approvals_faithful_iff 1 [Sample.delivered, Sample.delivered]).1.mpr (fun before s hprefix => ?_)
  obtain ⟨since, hhistory⟩ := hprefix
  rcases before with _ | ⟨first, _ | ⟨second, before⟩⟩
  · obtain ⟨rfl, -⟩ := List.cons_eq_cons.mp hhistory
    exact .inr (.inl ⟨rfl, fun _ hmem => absurd hmem List.not_mem_nil⟩)
  · obtain ⟨rfl, hrest⟩ := List.cons_eq_cons.mp hhistory
    obtain ⟨rfl, -⟩ := List.cons_eq_cons.mp hrest
    exact .inl ⟨⟨[], Sample.delivered, [], rfl, rfl, trivial⟩, by decide⟩
  · have hlength := congrArg List.length hhistory
    simp at hlength

/-- An approval whose signal fails: the gate counts as resolved, nothing was delivered,
and the next attempt is dropped. -/
theorem lost_approval_resolved :
    "gate" ∈ (((Desk.opened 1).next Sample.lost).registry.of "run").resolvedHumanGates ∧
      ((Desk.opened 1).next Sample.lost).delivered = [] ∧
      (beginApproval ((Desk.opened 1).next Sample.lost).registry Sample.approval).2 = none ∧
      ¬ Along Desk.next Desk.Settled (Desk.opened 1) [Sample.lost] := by
  refine ⟨by decide, rfl, rfl, ?_⟩
  intro h
  exact h.1.repeatable _ rfl rfl

end AgentKernel.Facade
