import AgentKernel.Runtime.Heartbeat

/-! Calm runs of the watchdog.

In a calm run no activity of a run comes while a sweep still has it, and none is older than the one
before. Then sweeps share no run, and a run that has been signalled stays marked until it acts
(`Orderly`), so signals are sound and are not repeated (`heartbeat_law`). -/
namespace AgentKernel.Runtime
open Lib

variable {policy : HeartbeatPolicy}

/-! ### The invariant of calm runs -/

/-- The sweeps share no run, and a run they have has had no delivery since its last activity. A run
that has one is marked, and so is one that a sweep has, while it is tracked. -/
structure Orderly (policy : HeartbeatPolicy) (w : World) : Prop where
  nodup : ∀ i, (w.rest i).Nodup
  apart : ∀ i j r, r ∈ w.rest i → r ∈ w.rest j → i = j
  waiting : ∀ i r, r ∈ (w.rest i).tail → w.silent policy r = true
  held : ∀ i r, r ∈ w.rest i → w.delivered r = 0
  marked : ∀ r, w.monitor.entries.get? r ≠ none → ((∃ i, r ∈ w.rest i) ∨ w.delivered r = 1) →
    r ∈ w.monitor.timedOut
  once : ∀ r, w.delivered r ≤ 1
  current : ∀ r entry, w.monitor.entries.get? r = some entry → w.newest r = entry.lastSeenMs
  free : ∀ r ∈ w.failed, r ∉ w.monitor.timedOut

namespace Orderly
variable {w : World} {runId : String}

theorem start (now : Int) : Orderly policy (World.start now) where
  nodup := fun _ => List.nodup_nil
  apart := fun _ _ _ h => nomatch h
  waiting := fun _ _ h => nomatch h
  held := fun _ _ h => nomatch h
  marked := fun _ h => absurd rfl h
  once := fun _ => Nat.zero_le 1
  current := fun _ _ h => nomatch h
  free := fun _ h => nomatch h

theorem touch (h : Orderly policy w) (lifecycleState : Option String) {timestampMs : Int}
    (htimely : Timely w runId timestampMs) : Orderly policy (w.touch runId lifecycleState timestampMs) := by
  have hfree := World.not_mem_rest htimely.1
  have hnewest : ∀ r, r ≠ runId → (w.touch runId lifecycleState timestampMs).newest r = w.newest r :=
    fun r hr => Function.update_of_ne hr ..
  have hdelivered : ∀ r, r ≠ runId → (w.touch runId lifecycleState timestampMs).delivered r = w.delivered r :=
    fun r hr => Function.update_of_ne hr ..
  have hzero : (w.touch runId lifecycleState timestampMs).delivered runId = 0 := Function.update_self ..
  have hentry : ∀ r, r ≠ runId → (w.touch runId lifecycleState timestampMs).monitor.entries.get? r =
      w.monitor.entries.get? r := by
    intro r hr
    rw [World.touch, RunHeartbeatMonitor.get?_touch, if_neg hr]
  have hmarked : ∀ r, r ∈ (w.touch runId lifecycleState timestampMs).monitor.timedOut ↔
      r ∈ w.monitor.timedOut ∧ r ≠ runId := fun r => RunHeartbeatMonitor.mem_discard
  refine ⟨h.nodup, h.apart, ?_, ?_, ?_, ?_, ?_, ?_⟩
  · intro i r hr
    have hne : r ≠ runId := fun heq => hfree i (heq ▸ List.mem_of_mem_tail hr)
    exact World.silent_congr (hentry r hne) (hnewest r hne) (Int.le_refl _) (h.waiting i r hr)
  · intro i r hr
    have hne : r ≠ runId := fun heq => hfree i (heq ▸ hr)
    rw [hdelivered r hne]
    exact h.held i r hr
  · intro r htracked hhad
    by_cases hr : r = runId
    · subst hr
      rw [hzero] at hhad
      rcases hhad with ⟨i, hi⟩ | hhad
      · exact absurd hi (hfree i)
      · cases hhad
    · rw [hdelivered r hr] at hhad
      exact (hmarked r).mpr ⟨h.marked r (hentry r hr ▸ htracked) hhad, hr⟩
  · intro r
    by_cases hr : r = runId
    · rw [hr, hzero]
      exact Nat.zero_le 1
    · rw [hdelivered r hr]
      exact h.once r
  · intro r entry hget
    by_cases hr : r = runId
    · subst hr
      have htouched : (w.touch r lifecycleState timestampMs).monitor.entries.get? r =
          some (RunHeartbeatMonitor.touched (w.monitor.entries.get? r) r lifecycleState timestampMs) := by
        rw [World.touch, RunHeartbeatMonitor.get?_touch, if_pos rfl]
      rw [htouched] at hget
      cases hget
      rw [RunHeartbeatMonitor.touched_lastSeenMs]
      show Function.update w.newest r _ r = _
      rw [Function.update_self]
      cases hold : w.monitor.entries.get? r with
      | none => rfl
      | some entry =>
        rw [h.current r entry hold]
        exact Int.max_eq_right (htimely.2 entry hold)
    · rw [hentry r hr] at hget
      rw [hnewest r hr]
      exact h.current r entry hget
  · intro r hr hin
    exact h.free r hr ((hmarked r).mp hin).1

theorem clear (h : Orderly policy w) (hidle : ∀ i, runId ∉ (w.rest i).tail) :
    Orderly policy (w.clear runId) := by
  have hentry : ∀ r, (w.clear runId).monitor.entries.get? r =
      if r = runId then none else w.monitor.entries.get? r := fun r => RunHeartbeatMonitor.get?_clear
  have hmarked : ∀ r, r ∈ (w.clear runId).monitor.timedOut ↔ r ∈ w.monitor.timedOut ∧ r ≠ runId :=
    fun r => RunHeartbeatMonitor.mem_discard
  refine ⟨h.nodup, h.apart, ?_, h.held, ?_, h.once, ?_, ?_⟩
  · intro i r hr
    have hne : r ≠ runId := fun heq => hidle i (heq ▸ hr)
    exact World.silent_congr (w := w) (by rw [hentry, if_neg hne]) rfl (Int.le_refl _) (h.waiting i r hr)
  · intro r htracked hhad
    rw [hentry] at htracked
    split at htracked
    · exact absurd rfl htracked
    next hne => exact (hmarked r).mpr ⟨h.marked r htracked hhad, hne⟩
  · intro r entry hget
    rw [hentry] at hget
    split at hget
    · cases hget
    · exact h.current r entry hget
  · intro r hr hin
    exact h.free r hr ((hmarked r).mp hin).1

theorem tick (h : Orderly policy w) (ms : Nat) : Orderly policy { w with now := w.now + ms } :=
  { h with waiting := fun i r hr => World.silent_congr (w := w) rfl rfl (by dsimp only; omega) (h.waiting i r hr) }

/-- Whom a sweep lists no other sweep has, and the runs are silent. -/
theorem of_listed (h : Orderly policy w) {r : String} (hr : r ∈ w.monitor.timedOutRuns policy w.now) :
    (∀ i, r ∉ w.rest i) ∧ w.delivered r = 0 ∧ w.silent policy r = true := by
  obtain ⟨hunmarked, entry, timeoutS, hget, htimeout, hage⟩ := RunHeartbeatMonitor.mem_timedOutRuns.mp hr
  have htracked : w.monitor.entries.get? r ≠ none := by simp [hget]
  refine ⟨fun i hi => hunmarked (h.marked r htracked (.inl ⟨i, hi⟩)), ?_, ?_⟩
  · have honce := h.once r
    have hone : w.delivered r ≠ 1 := fun hone => hunmarked (h.marked r htracked (.inr hone))
    omega
  · exact World.silent_iff.mpr ⟨entry, timeoutS, hget, htimeout, by rw [h.current r entry hget]; exact hage⟩

theorem begins (h : Orderly policy w) : Orderly policy (w.begins policy) := by
  have hsilent : ∀ r, w.silent policy r = true → (w.begins policy).silent policy r = true :=
    fun r hr => World.silent_congr (w := w) rfl rfl (Int.le_refl _) hr
  have hmarked : ∀ r, r ∈ (w.begins policy).monitor.timedOut ↔
      r ∈ w.monitor.timedOut ∨ r ∈ w.monitor.timedOutRuns policy w.now := fun r => List.mem_append
  refine ⟨?_, ?_, ?_, ?_, ?_, h.once, h.current, fun _ hr => nomatch hr⟩
  · intro i
    rw [World.rest_begins]
    split
    · exact RunHeartbeatMonitor.timedOutRuns_nodup _
    · exact h.nodup i
  · intro i j r hi hj
    rw [World.rest_begins] at hi hj
    split at hi <;> split at hj
    next hi' hj' => rw [hi', hj']
    · exact absurd hj ((h.of_listed hi).1 j)
    · exact absurd hi ((h.of_listed hj).1 i)
    · exact h.apart i j r hi hj
  · intro i r hr
    rw [World.rest_begins] at hr
    split at hr
    · exact hsilent r (h.of_listed (List.mem_of_mem_tail hr)).2.2
    · exact hsilent r (h.waiting i r hr)
  · intro i r hr
    rw [World.rest_begins] at hr
    split at hr
    · exact (h.of_listed hr).2.1
    · exact h.held i r hr
  · intro r htracked hhad
    refine (hmarked r).mpr ?_
    rcases hhad with ⟨i, hi⟩ | hone
    · rw [World.rest_begins] at hi
      split at hi
      · exact .inr hi
      · exact .inl (h.marked r htracked (.inl ⟨i, hi⟩))
    · exact .inl (h.marked r htracked (.inr hone))

section
variable {i : Nat} {rest : List String}

/-- What a sweep passes on it had before, and not at the head. -/
theorem mem_rest_pass (h : Orderly policy w) (hrest : w.rest i = runId :: rest) {j : Nat} {r : String}
    (hr : r ∈ (w.pass i rest).rest j) : r ∈ w.rest j ∧ r ≠ runId := by
  have hhead : runId ∈ w.rest i := by simp [hrest]
  have hnodup := h.nodup i
  rw [hrest] at hnodup
  rw [World.rest_pass hhead] at hr
  split at hr
  next hj =>
    subst hj
    refine ⟨by simp [hrest, hr], ?_⟩
    rintro rfl
    exact (List.nodup_cons.mp hnodup).1 hr
  next hj =>
    refine ⟨hr, ?_⟩
    rintro rfl
    exact hj (h.apart j i r hr hhead)

theorem mem_rest_tail_pass (hrest : w.rest i = runId :: rest) {j : Nat} {r : String}
    (hr : r ∈ ((w.pass i rest).rest j).tail) : r ∈ (w.rest j).tail := by
  rw [World.rest_pass (show runId ∈ w.rest i by simp [hrest])] at hr
  split at hr
  next hj =>
    subst hj
    rw [hrest]
    exact List.mem_of_mem_tail hr
  · exact hr

theorem pass_nodup (h : Orderly policy w) (hrest : w.rest i = runId :: rest) (j : Nat) :
    ((w.pass i rest).rest j).Nodup := by
  rw [World.rest_pass (show runId ∈ w.rest i by simp [hrest])]
  split
  · have hnodup := h.nodup i
    rw [hrest] at hnodup
    exact (List.nodup_cons.mp hnodup).2
  · exact h.nodup j

theorem delivers (h : Orderly policy w) (hrest : w.rest i = runId :: rest) :
    Orderly policy (w.delivers i runId rest) := by
  have hhead : runId ∈ w.rest i := by simp [hrest]
  have hone : (w.delivers i runId rest).delivered runId = 1 := by
    show Function.update w.delivered runId _ runId = 1
    rw [Function.update_self, h.held i runId hhead]
  have hdelivered : ∀ r, r ≠ runId → (w.delivers i runId rest).delivered r = w.delivered r :=
    fun r hr => Function.update_of_ne hr ..
  refine ⟨h.pass_nodup hrest, ?_, ?_, ?_, ?_, ?_, h.current, h.free⟩
  · exact fun j k r hj hk => h.apart j k r (h.mem_rest_pass hrest hj).1 (h.mem_rest_pass hrest hk).1
  · exact fun j r hr => World.silent_congr (w := w) rfl rfl (Int.le_refl _)
      (h.waiting j r (mem_rest_tail_pass hrest hr))
  · intro j r hr
    obtain ⟨hold, hne⟩ := h.mem_rest_pass hrest hr
    rw [hdelivered r hne]
    exact h.held j r hold
  · intro r htracked hhad
    by_cases hr : r = runId
    · -- A sweep had the run up to now.
      exact h.marked r htracked (.inl ⟨i, hr ▸ hhead⟩)
    · rw [hdelivered r hr] at hhad
      exact h.marked r htracked (hhad.imp_left (fun ⟨j, hj⟩ => ⟨j, (h.mem_rest_pass hrest hj).1⟩))
  · intro r
    by_cases hr : r = runId
    · rw [hr, hone]
    · rw [hdelivered r hr]
      exact h.once r

theorem fails (h : Orderly policy w) (hrest : w.rest i = runId :: rest) :
    Orderly policy (w.fails i runId rest) := by
  have hhead : runId ∈ w.rest i := by simp [hrest]
  have hmarked : ∀ r, r ∈ (w.fails i runId rest).monitor.timedOut ↔ r ∈ w.monitor.timedOut ∧ r ≠ runId :=
    fun r => RunHeartbeatMonitor.mem_discard
  refine ⟨h.pass_nodup hrest, ?_, ?_, ?_, ?_, h.once, h.current, ?_⟩
  · exact fun j k r hj hk => h.apart j k r (h.mem_rest_pass hrest hj).1 (h.mem_rest_pass hrest hk).1
  · exact fun j r hr => World.silent_congr (w := w) rfl rfl (Int.le_refl _)
      (h.waiting j r (mem_rest_tail_pass hrest hr))
  · exact fun j r hr => h.held j r (h.mem_rest_pass hrest hr).1
  · intro r htracked hhad
    refine (hmarked r).mpr ⟨?_, ?_⟩
    · exact h.marked r htracked (hhad.imp_left (fun ⟨j, hj⟩ => ⟨j, (h.mem_rest_pass hrest hj).1⟩))
    · rintro rfl
      rcases hhad with ⟨j, hj⟩ | hone
      · exact (h.mem_rest_pass hrest hj).2 rfl
      · have hzero := h.held i r hhead
        have : w.delivered r = 1 := hone
        omega
  · intro r hr hin
    obtain ⟨hin, hne⟩ := (hmarked r).mp hin
    rcases List.mem_cons.mp hr with rfl | hr
    · exact hne rfl
    · exact h.free r hr hin

end

/-- A signal changes nothing but what has been sent. -/
theorem send (h : Orderly policy w) (i : Nat) : Orderly policy (w.send policy i) := by
  unfold World.send
  split
  · exact h
  · exact ⟨h.nodup, h.apart, h.waiting, h.held, h.marked, h.once, h.current, h.free⟩

end Orderly

/-! ### The signals of calm runs -/

/-- What has been sent, and what the sweeps have still to send. -/
structure Addressed (w : World) : Prop where
  sound : ∀ signal ∈ w.signals, signal.justified = true
  resent : ∀ i s, w.sweeps[i]? = some s → ∀ runId ∈ s.due, runId ∈ s.rest.tail ∨ w.Sent i runId

namespace World
variable {w : World} {i j : Nat} {r : String}

theorem Sent.send (h : w.Sent j r) (i : Nat) : (w.send policy i).Sent j r := by
  obtain ⟨signal, hsignal, hsent⟩ := h
  unfold World.send
  split
  · exact ⟨signal, hsignal, hsent⟩
  · exact ⟨signal, List.mem_append_left _ hsignal, hsent⟩

theorem sent_send {rest : List String} (h : w.rest i = r :: rest) : (w.send policy i).Sent i r := by
  unfold World.send
  rw [h]
  exact ⟨_, List.mem_append_right _ (List.mem_singleton_self _), rfl, rfl⟩

theorem sweeps_send (w : World) (i : Nat) : (w.send policy i).sweeps = w.sweeps := by
  unfold World.send
  split <;> rfl

/-- A sweep that signals the next of its runs, a silent one, has seen to it. -/
theorem addressed_send (hsound : ∀ signal ∈ w.signals, signal.justified = true)
    (hsilent : ∀ r ∈ (w.rest i).head?, w.silent policy r = true)
    (hresent : ∀ j s, w.sweeps[j]? = some s → ∀ r ∈ s.due,
      (r ∈ s.rest.tail ∨ w.Sent j r) ∨ (j = i ∧ r ∈ s.rest)) : Addressed (w.send policy i) := by
  refine ⟨?_, ?_⟩
  · unfold World.send
    split
    · exact hsound
    next r rest hrest =>
      intro signal hsignal
      rcases List.mem_append.mp hsignal with hsignal | hsignal
      · exact hsound signal hsignal
      · rw [List.mem_singleton.mp hsignal]
        exact hsilent r (by rw [hrest]; rfl)
  · intro j s hs r hr
    rw [sweeps_send] at hs
    rcases hresent j s hs r hr with (htail | hsent) | ⟨rfl, hmem⟩
    · exact .inl htail
    · exact .inr (hsent.send i)
    · have hrest := rest_eq hs
      cases hlist : s.rest with
      | nil => simp [hlist] at hmem
      | cons head tail =>
        rw [hlist] at hmem hrest
        rcases List.mem_cons.mp hmem with rfl | hmem
        · exact .inr (sent_send hrest)
        · exact .inl hmem

end World

namespace Addressed
variable {w : World} {runId : String}

theorem sweep (h : Addressed w) (horderly : Orderly policy w) : Addressed (w.sweep policy) := by
  refine World.addressed_send h.sound (fun r hr => ?_) (fun j s hs r hr => ?_)
  · have hlisted := List.mem_of_mem_head? hr
    rw [World.rest_begins, if_pos rfl] at hlisted
    exact World.silent_congr (w := w) rfl rfl (Int.le_refl _) (horderly.of_listed hlisted).2.2
  · have hsweeps : (w.sweeps ++ [⟨w.monitor.timedOutRuns policy w.now, w.failed.filter (w.silent policy)⟩])[j]? =
        some s := hs
    by_cases hj : j < w.sweeps.length
    · rw [List.getElem?_append_left hj] at hsweeps
      exact .inl (h.resent j s hsweeps r hr)
    · obtain ⟨hlast, hs⟩ : j = w.sweeps.length ∧
          s = ⟨w.monitor.timedOutRuns policy w.now, w.failed.filter (w.silent policy)⟩ := by
        rw [List.getElem?_append_right (Nat.le_of_not_lt hj)] at hsweeps
        obtain ⟨hindex, hvalue⟩ := List.getElem?_eq_some_iff.mp hsweeps
        simp only [List.length_singleton] at hindex
        refine ⟨by omega, ?_⟩
        rw [← hvalue]
        simp
      subst hs
      obtain ⟨hfailed, hsilent⟩ := List.mem_filter.mp hr
      obtain ⟨entry, timeoutS, hget, htimeout, hage⟩ := World.silent_iff.mp hsilent
      refine .inr ⟨hlast, RunHeartbeatMonitor.mem_timedOutRuns.mpr ⟨horderly.free r hfailed, entry, timeoutS,
        hget, htimeout, ?_⟩⟩
      rw [← horderly.current r entry hget]
      exact hage

/-- The end of a delivery, however the rest of the state changes. -/
theorem passed (h : Addressed w) {i : Nat} {rest : List String} (hrest : w.rest i = runId :: rest) {w' : World}
    (hsignals : w'.signals = w.signals) (hsweeps : w'.sweeps = (w.pass i rest).sweeps)
    (hsilent : ∀ r ∈ rest.head?, w'.silent policy r = true) : Addressed (w'.send policy i) := by
  have hhead : runId ∈ w.rest i := by simp [hrest]
  have hrest' : w'.rest i = rest := by
    unfold World.rest
    rw [hsweeps]
    exact (World.rest_pass hhead rest).trans (if_pos rfl)
  refine World.addressed_send (by rw [hsignals]; exact h.sound) (by rw [hrest']; exact hsilent) ?_
  intro j s hs r hr
  rw [hsweeps] at hs
  have hsent : w.Sent j r → w'.Sent j r := by
    intro hsent
    unfold World.Sent
    rw [hsignals]
    exact hsent
  by_cases hj : j = i
  · subst hj
    obtain ⟨old, -, hold, hlist⟩ := World.exists_sweep hhead
    have hnew : s = { old with rest := rest } := by
      simpa [World.pass, hold] using hs.symm
    subst hnew
    rw [hrest] at hlist
    rcases h.resent j old hold r hr with htail | hsent'
    · rw [← hlist] at htail
      exact .inr ⟨rfl, htail⟩
    · exact .inl (.inr (hsent hsent'))
  · have hold : w.sweeps[j]? = some s := by
      simpa [World.pass, Ne.symm hj] using hs
    exact .inl ((h.resent j s hold r hr).imp_right hsent)

end Addressed

/-- **One calm step.** -/
theorem step_calm {w : World} (h : Orderly policy w ∧ Addressed w) (label : Label) (hcalm : Calm w label) :
    Orderly policy (w.step policy label) ∧ Addressed (w.step policy label) := by
  obtain ⟨horderly, haddressed⟩ := h
  cases label with
  | onTurnStateTransition runId timestampMs => exact ⟨horderly.touch _ hcalm, haddressed.sound, haddressed.resent⟩
  | onLlmCall runId => exact ⟨horderly.touch _ hcalm, haddressed.sound, haddressed.resent⟩
  | onActionDispatch runId => exact ⟨horderly.touch _ hcalm, haddressed.sound, haddressed.resent⟩
  | recordHeartbeat runId => exact ⟨horderly.touch _ hcalm, haddressed.sound, haddressed.resent⟩
  | onRecoveryTriggered runId => exact ⟨horderly, haddressed⟩
  | onRunLifecycleTransition runId toState timestampMs =>
    have htouched := horderly.touch (some toState) hcalm
    have hidle := World.not_mem_rest hcalm.1
    simp only [World.step]
    split
    · exact ⟨htouched.clear (fun i hi => hidle i (List.mem_of_mem_tail hi)), haddressed.sound,
        haddressed.resent⟩
    · exact ⟨htouched, haddressed.sound, haddressed.resent⟩
  | clear runId =>
    exact ⟨horderly.clear (World.not_mem_rest_tail hcalm), haddressed.sound, haddressed.resent⟩
  | tick ms => exact ⟨horderly.tick ms, haddressed.sound, haddressed.resent⟩
  | sweep => exact ⟨horderly.begins.send _, haddressed.sweep horderly⟩
  | ends i delivery =>
    simp only [World.step, World.ends]
    split
    · exact ⟨horderly, haddressed⟩
    next runId rest hrest =>
      -- Whoever is next has waited, and is silent still.
      have hnext : ∀ r ∈ rest.head?, w.silent policy r = true := by
        intro r hr
        refine horderly.waiting i r ?_
        rw [hrest]
        exact List.mem_of_mem_head? hr
      cases delivery with
      | succeeded =>
        exact ⟨(horderly.delivers hrest).send i, haddressed.passed hrest rfl rfl
          (fun r hr => World.silent_congr (w := w) rfl rfl (Int.le_refl _) (hnext r hr))⟩
      | failed =>
        exact ⟨(horderly.fails hrest).send i, haddressed.passed hrest rfl rfl
          (fun r hr => World.silent_congr (w := w) rfl rfl (Int.le_refl _) (hnext r hr))⟩
      | cancelled => exact hcalm.elim

/-- **Calm runs keep the law of heartbeats.** -/
theorem heartbeat_law (policy : HeartbeatPolicy) (now : Int) (labels : List Label)
    (hcalm : Along (World.step policy) Calm (World.start now) labels) :
    ∀ pre, pre <+: labels → HeartbeatLaw (run (World.step policy) (World.start now) pre) := by
  rintro pre ⟨more, rfl⟩
  have hstart : Orderly policy (World.start now) ∧ Addressed (World.start now) :=
    ⟨Orderly.start now, ⟨(fun _ h => nomatch h), (fun _ _ h => nomatch h)⟩⟩
  obtain ⟨horderly, haddressed⟩ :=
    run_invariant_along (I := fun w => Orderly policy w ∧ Addressed w)
      (fun w label hcalm h => step_calm h label hcalm) hstart pre (along_append.mp hcalm).1
  exact ⟨haddressed.sound, horderly.once, haddressed.resent⟩

/-- Two runs wait for results until both are silent, and a sweep begins. -/
def twoSilent : List Label :=
  [.onRunLifecycleTransition "a" "waiting_result" 0, .onRunLifecycleTransition "b" "waiting_result" 0,
   .tick 600000, .sweep]

/-- A sweep in which one delivery fails, and the sweep after it. -/
theorem failed_delivery_resent :
    let labels := twoSilent ++ [.ends 0 .failed, .ends 0 .succeeded, .sweep]
    HeartbeatLaw (run (World.step Dict.empty) (World.start 0) labels) :=
  heartbeat_law Dict.empty 0 _ (by decide) _ (List.prefix_refl _)

/-- The second run acts while the first signal is delivered, and is signalled all the same. One
that acts while its own signal is delivered is signalled twice. One whose activities are recorded
out of order is signalled although the newest has just been. -/
theorem heartbeat_law_broken :
    ¬ HeartbeatLaw (run (World.step Dict.empty) (World.start 0)
        (twoSilent ++ [.recordHeartbeat "b", .ends 0 .succeeded])) ∧
      ¬ HeartbeatLaw (run (World.step Dict.empty) (World.start 0)
        (twoSilent ++ [.recordHeartbeat "a", .ends 0 .succeeded, .tick 600000, .sweep, .ends 1 .succeeded])) ∧
      ¬ HeartbeatLaw (run (World.step Dict.empty) (World.start 0)
        [.tick 600000, .onRunLifecycleTransition "a" "waiting_result" 600000, .onTurnStateTransition "a" 0,
         .sweep]) := by
  refine ⟨fun h => ?_, fun h => ?_, fun h => ?_⟩
  · have hsound := h.sound
    revert hsound
    decide
  · have honce := h.once "a"
    revert honce
    decide
  · have hsound := h.sound
    revert hsound
    decide

end AgentKernel.Runtime
