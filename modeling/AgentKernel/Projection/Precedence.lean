import Mathlib.Data.List.Perm.Basic
import AgentKernel.Projection.Fold

/-! Operational precedence: cancel over hard failure over timeout over callback.

The projection does not store the class that won; it reads the class back from the
lifecycle state and from whether the free text of the recovery reason mentions a
cancellation. `Standing` keeps just the phase and the reason, over any events with a
class and a reason they may carry, and the projection is a view away from it
(`standing_run`). The phase never depends on the order of the events. The class does
exactly when a reason that can end up standing says something else than the class
that should have won (`settle_eq_highest_iff`). -/
namespace AgentKernel.Projection
open Lib

/-! ### Standings -/

inductive Phase where
  | live
  | waiting
  | aborted
  deriving DecidableEq, Repr

/-- The part of a projection that decides its operational class. -/
structure Standing where
  phase : Phase
  reason : Option String
  deriving DecidableEq, Repr

/-- An operational event: its class and the reason it carries. -/
abbrev Signal := OperationalClass × Option String

namespace Standing

def next (s : Standing) : Signal → Standing
  | (.cancel, carried) => ⟨.aborted, some ((carried.or s.reason).getD "cancel_requested")⟩
  | (.hardFailure, carried) => if s.phase = .aborted then s else ⟨.aborted, carried.or s.reason⟩
  | (.timeout, carried) => if s.phase = .aborted then s else ⟨.waiting, carried.or s.reason⟩
  | (.externalCallback, _) => s

/-- The class read back from the standing. -/
def operationalClass (s : Standing) : Option OperationalClass :=
  match s.phase with
  | .aborted => if isCancelReason s.reason then some .cancel else some .hardFailure
  | .waiting => some .timeout
  | .live => none

end Standing

section
variable {ε : Type} (sig : ε → Signal)

/-- The standing after some events. -/
def settle (s : Standing) (l : List ε) : Standing := run (fun s e => s.next (sig e)) s l

/-- Some event of the list has the class. -/
def Has (c : OperationalClass) (l : List ε) : Prop := ∃ e ∈ l, (sig e).1 = c

instance (c : OperationalClass) (l : List ε) : Decidable (Has sig c l) :=
  inferInstanceAs (Decidable (∃ e ∈ l, _))

/-- The highest class present. -/
def highestClass (l : List ε) : Option OperationalClass :=
  [.cancel, .hardFailure, .timeout, .externalCallback].find? (fun c => Has sig c l)

/-- The reasons that can be standing after a cancellation mention one. A cancellation
that carries a reason always has the last word; if none does, any reason that was
there before can stay. -/
structure CancelTold (initial : Option String) (l : List ε) : Prop where
  own : ∀ e ∈ l, ∀ r, sig e = (.cancel, some r) → isCancelReason (some r) = true
  others : (∀ e ∈ l, ∀ r, sig e ≠ (.cancel, some r)) →
    (initial = none ∨ isCancelReason initial = true) ∧
      ∀ e ∈ l, ∀ r, sig e = (.timeout, some r) ∨ sig e = (.hardFailure, some r) →
        isCancelReason (some r) = true

/-- The reasons that can be standing after a hard failure, without a cancellation, do
not mention one. -/
structure FailureTold (initial : Option String) (l : List ε) : Prop where
  own : ∀ e ∈ l, ∀ r, sig e = (.hardFailure, some r) → isCancelReason (some r) = false
  others : (∃ e ∈ l, sig e = (.hardFailure, none)) → isCancelReason initial = false ∧
    ∀ e ∈ l, ∀ r, sig e = (.timeout, some r) → isCancelReason (some r) = false

/-- Phase and reason tell the highest class, in every order of the events. -/
def Told (initial : Option String) (l : List ε) : Prop :=
  (Has sig .cancel l → CancelTold sig initial l) ∧
  (¬ Has sig .cancel l → Has sig .hardFailure l → FailureTold sig initial l) ∧
  (¬ Has sig .cancel l → ¬ Has sig .hardFailure l → l = [] ∨ Has sig .timeout l)

variable {sig}

theorem highestClass_cancel {l : List ε} (h : Has sig .cancel l) :
    highestClass sig l = some .cancel := by
  simp [highestClass, h]

theorem highestClass_hardFailure {l : List ε} (hc : ¬ Has sig .cancel l) (h : Has sig .hardFailure l) :
    highestClass sig l = some .hardFailure := by
  simp [highestClass, hc, h]

theorem highestClass_timeout {l : List ε} (hc : ¬ Has sig .cancel l) (hh : ¬ Has sig .hardFailure l)
    (h : Has sig .timeout l) : highestClass sig l = some .timeout := by
  simp [highestClass, hc, hh, h]

theorem highestClass_ne_none {e : ε} {l : List ε} (h : e ∈ l) : highestClass sig l ≠ none := by
  intro hnone
  have hall := List.find?_eq_none.mp hnone (sig e).1 (by cases (sig e).1 <;> simp)
  simp only [decide_eq_true_eq] at hall
  exact hall ⟨e, h, rfl⟩

theorem settle_append (s : Standing) (a b : List ε) :
    settle sig s (a ++ b) = settle sig (settle sig s a) b := run_append _ _ a b

/-- What every event of a list keeps, settling part of the list keeps. -/
theorem settle_invariant {P : Standing → Prop} {l a : List ε} (hsub : ∀ e ∈ a, e ∈ l)
    (step : ∀ s, ∀ e ∈ l, P s → P (s.next (sig e))) {s : Standing} (h : P s) : P (settle sig s a) :=
  run_invariant_of step h a hsub

/-- Only cancellations that carry a reason change the standing of an aborted run. -/
theorem settle_aborted {r : String} {l : List ε} (hno : ∀ e ∈ l, ∀ r', sig e ≠ (.cancel, some r')) :
    settle sig ⟨.aborted, some r⟩ l = ⟨.aborted, some r⟩ := by
  refine settle_invariant (P := fun s => s = ⟨.aborted, some r⟩) (l := l) (fun _ h => h) ?_ rfl
  intro _ e hmem hstanding
  obtain rfl := hstanding
  have he := hno e hmem
  rcases hsig : sig e with ⟨c, carried⟩
  cases c with
  | cancel =>
    cases carried with
    | none => rfl
    | some r' => exact (he r' hsig).elim
  | hardFailure => rfl
  | timeout => rfl
  | externalCallback => rfl

/-! ### Enough -/

/-- Once aborted, a class lasts as long as later cancellations say the same. -/
theorem settle_keeps_class {told : Bool} {s : Standing} {l : List ε} (hphase : s.phase = .aborted)
    (hreason : isCancelReason s.reason = told)
    (hbare : told = false → ∀ e ∈ l, (sig e).1 ≠ .cancel)
    (hown : ∀ e ∈ l, ∀ r, sig e = (.cancel, some r) → isCancelReason (some r) = told) :
    (settle sig s l).phase = .aborted ∧ isCancelReason (settle sig s l).reason = told := by
  refine settle_invariant (P := fun s => s.phase = .aborted ∧ isCancelReason s.reason = told) (l := l)
    (fun _ h => h) ?_ ⟨hphase, hreason⟩
  intro standing e he hboth
  obtain ⟨phase, reason⟩ := standing
  obtain ⟨rfl, hr⟩ := hboth
  rcases hsig : sig e with ⟨c, carried⟩
  cases c with
  | cancel =>
    refine ⟨rfl, ?_⟩
    have hcancel : told = true := by
      rcases htold : told with _ | _
      · exact (hbare htold e he (by rw [hsig])).elim
      · rfl
    subst hcancel
    cases carried with
    | some r => exact hown e he r hsig
    | none =>
      cases reason with
      | some r => exact hr
      | none => cases hr
  | hardFailure => exact ⟨rfl, hr⟩
  | timeout => exact ⟨rfl, hr⟩
  | externalCallback => exact ⟨rfl, hr⟩

theorem operationalClass_aborted {s : Standing} (h : s.phase = .aborted) :
    s.operationalClass = if isCancelReason s.reason then some .cancel else some .hardFailure := by
  simp [Standing.operationalClass, h]

theorem cancelRequested_told : isCancelReason (some "cancel_requested") = true := by decide

/-- As long as every reason that comes by mentions a cancellation, or there is none,
the standing reason does. -/
theorem settle_reason_told {initial : Option String} {l a : List ε} (hsub : ∀ e ∈ a, e ∈ l)
    (hinitial : initial = none ∨ isCancelReason initial = true)
    (hcarried : ∀ e ∈ l, ∀ r, (sig e).2 = some r → (sig e).1 ≠ .externalCallback →
      isCancelReason (some r) = true) :
    (settle sig ⟨.live, initial⟩ a).reason = none ∨
      isCancelReason (settle sig ⟨.live, initial⟩ a).reason = true := by
  refine settle_invariant (P := fun s => s.reason = none ∨ isCancelReason s.reason = true) hsub ?_
    hinitial
  intro standing e he hr
  obtain ⟨phase, reason⟩ := standing
  have hcar := hcarried e he
  rcases hsig : sig e with ⟨c, carried⟩
  rw [hsig] at hcar
  cases c with
  | cancel =>
    refine .inr ?_
    cases carried with
    | some r => exact hcar r rfl (by simp)
    | none =>
      cases reason with
      | none => exact cancelRequested_told
      | some r => exact hr.resolve_left (by simp)
  | hardFailure =>
    by_cases hp : phase = .aborted
    · simpa [Standing.next, hp] using hr
    · cases carried with
      | some r => simpa [Standing.next, hp] using hcar r rfl (by simp)
      | none => simpa [Standing.next, hp] using hr
  | timeout =>
    by_cases hp : phase = .aborted
    · simpa [Standing.next, hp] using hr
    · cases carried with
      | some r => simpa [Standing.next, hp] using hcar r rfl (by simp)
      | none => simpa [Standing.next, hp] using hr
  | externalCallback => exact hr

/-- It is enough that some cancellation leaves a reason that mentions one. -/
theorem settle_cancel_of_mid {initial : Option String} {a b : List ε} {e : ε}
    (hclass : (sig e).1 = .cancel)
    (hreason : isCancelReason ((settle sig ⟨.live, initial⟩ a).next (sig e)).reason = true)
    (hown : ∀ e' ∈ b, ∀ r, sig e' = (.cancel, some r) → isCancelReason (some r) = true) :
    (settle sig ⟨.live, initial⟩ (a ++ e :: b)).operationalClass = some .cancel := by
  have hphase : ((settle sig ⟨.live, initial⟩ a).next (sig e)).phase = .aborted := by
    rcases hsig : sig e with ⟨c, carried⟩
    obtain rfl : c = .cancel := by rw [hsig] at hclass; exact hclass
    rfl
  obtain ⟨hp, hr⟩ := settle_keeps_class hphase hreason (fun h => nomatch h) hown
  have hsplit : settle sig ⟨.live, initial⟩ (a ++ e :: b) =
      settle sig ((settle sig ⟨.live, initial⟩ a).next (sig e)) b := settle_append _ a (e :: b)
  rw [hsplit, operationalClass_aborted hp, hr, if_pos rfl]

theorem settle_cancel {initial : Option String} {l : List ε} (hc : Has sig .cancel l)
    (h : CancelTold sig initial l) :
    (settle sig ⟨.live, initial⟩ l).operationalClass = some .cancel := by
  by_cases hspoken : ∃ e ∈ l, ∃ r, sig e = (.cancel, some r)
  · obtain ⟨e, he, r, hsig⟩ := hspoken
    have hown := h.own e he r hsig
    obtain ⟨a, b, rfl⟩ := List.append_of_mem he
    refine settle_cancel_of_mid (by rw [hsig]) ?_
      (fun e' he' => h.own e' (List.mem_append_right _ (List.mem_cons_of_mem _ he')))
    rw [hsig]
    exact hown
  · -- No cancellation speaks for itself, so every reason that may stay has to.
    have hsilent : ∀ e ∈ l, ∀ r, sig e ≠ (.cancel, some r) :=
      fun e he r hsig => hspoken ⟨e, he, r, hsig⟩
    obtain ⟨hinitial, hothers⟩ := h.others hsilent
    have hcarried : ∀ e ∈ l, ∀ r, (sig e).2 = some r → (sig e).1 ≠ .externalCallback →
        isCancelReason (some r) = true := by
      intro e he r hr hne
      rcases hsig : sig e with ⟨c, carried⟩
      rw [hsig] at hr hne
      obtain rfl : carried = some r := hr
      cases c with
      | cancel => exact (hsilent e he r hsig).elim
      | hardFailure => exact hothers e he r (.inr hsig)
      | timeout => exact hothers e he r (.inl hsig)
      | externalCallback => exact (hne rfl).elim
    obtain ⟨e, he, hclass⟩ := hc
    obtain ⟨a, b, hl⟩ := List.append_of_mem he
    have hsub : ∀ e' ∈ a ++ [e], e' ∈ l := by
      intro e' he'
      rw [hl]
      rcases List.mem_append.mp he' with he' | he'
      · exact List.mem_append_left _ he'
      · exact List.mem_append_right _ (List.mem_singleton.mp he' ▸ List.mem_cons_self)
    have hafter := settle_reason_told hsub hinitial hcarried
    rw [settle_append] at hafter
    rw [hl]
    refine settle_cancel_of_mid hclass (hafter.resolve_left ?_)
      (fun e' he' r hsig => (hsilent e' (by rw [hl]; simp [he']) r hsig).elim)
    -- A cancellation always leaves some reason.
    rcases hsig : sig e with ⟨c, carried⟩
    obtain rfl : c = .cancel := by rw [hsig] at hclass; exact hclass
    show ((settle sig _ a).next (sig e)).reason ≠ none
    rw [hsig]
    exact Option.some_ne_none _

/-- What a hard failure is about to find: no mention of a cancellation to fall back on,
or no failure that would. -/
def Unmentioned (sig : ε → Signal) (l : List ε) (s : Standing) : Prop :=
  isCancelReason s.reason = false ∨
    s.phase ≠ .aborted ∧ ¬ ∃ e ∈ l, sig e = (.hardFailure, none)

theorem unmentioned_next {initial : Option String} {l : List ε} (hc : ¬ Has sig .cancel l)
    (h : FailureTold sig initial l) (s : Standing) (e : ε) (he : e ∈ l) (hs : Unmentioned sig l s) :
    Unmentioned sig l (s.next (sig e)) := by
  obtain ⟨phase, reason⟩ := s
  rcases hsig : sig e with ⟨c, carried⟩
  by_cases hp : phase = .aborted
  · have hfalse : isCancelReason reason = false := hs.resolve_right (fun hs => hs.1 hp)
    subst hp
    cases c with
    | cancel => exact (hc ⟨e, he, by rw [hsig]⟩).elim
    | hardFailure => exact .inl hfalse
    | timeout => exact .inl hfalse
    | externalCallback => exact .inl hfalse
  · cases c with
    | cancel => exact (hc ⟨e, he, by rw [hsig]⟩).elim
    | hardFailure =>
      simp only [Standing.next, hp, if_false]
      cases carried with
      | some r => exact .inl (h.own e he r hsig)
      | none => exact .inl (hs.resolve_right (fun hs => hs.2 ⟨e, he, hsig⟩))
    | timeout =>
      simp only [Standing.next, hp, if_false]
      by_cases hbare : ∃ e ∈ l, sig e = (.hardFailure, none)
      · cases carried with
        | some r => exact .inl ((h.others hbare).2 e he r hsig)
        | none => exact .inl (hs.resolve_right (fun hs => hs.2 hbare))
      · exact .inr ⟨by simp, hbare⟩
    | externalCallback => exact hs

/-- A hard failure aborts without a mention of a cancellation. -/
theorem unmentioned_failure {initial : Option String} {l : List ε} (h : FailureTold sig initial l)
    {s : Standing} {e : ε} (he : e ∈ l) (hclass : (sig e).1 = .hardFailure) (hs : Unmentioned sig l s) :
    (s.next (sig e)).phase = .aborted ∧ isCancelReason (s.next (sig e)).reason = false := by
  obtain ⟨phase, reason⟩ := s
  rcases hsig : sig e with ⟨c, carried⟩
  obtain rfl : c = .hardFailure := by rw [hsig] at hclass; exact hclass
  by_cases hp : phase = .aborted
  · subst hp
    exact ⟨rfl, hs.resolve_right (fun hs => hs.1 rfl)⟩
  · simp only [Standing.next, hp, if_false, true_and]
    cases carried with
    | some r => exact h.own e he r hsig
    | none => exact hs.resolve_right (fun hs => hs.2 ⟨e, he, hsig⟩)

theorem settle_hardFailure {initial : Option String} {l : List ε} (hc : ¬ Has sig .cancel l)
    (hh : Has sig .hardFailure l) (h : FailureTold sig initial l) :
    (settle sig ⟨.live, initial⟩ l).operationalClass = some .hardFailure := by
  have hstart : Unmentioned sig l ⟨.live, initial⟩ := by
    by_cases hbare : ∃ e ∈ l, sig e = (.hardFailure, none)
    · exact .inl (h.others hbare).1
    · exact .inr ⟨by simp, hbare⟩
  obtain ⟨e, he, hclass⟩ := hh
  obtain ⟨a, b, hl⟩ := List.append_of_mem he
  have hsub : ∀ e' ∈ a, e' ∈ l := fun e' he' => hl ▸ List.mem_append_left _ he'
  have hno : ∀ e' ∈ b, (sig e').1 ≠ .cancel := by
    intro e' he' hcancel
    exact hc ⟨e', by rw [hl]; simp [he'], hcancel⟩
  obtain ⟨hphase, hreason⟩ :=
    unmentioned_failure h he hclass (settle_invariant hsub (unmentioned_next hc h) hstart)
  obtain ⟨hp, hr⟩ := settle_keeps_class hphase hreason (fun _ => hno)
    (fun e' he' r hsig => (hno e' he' (by rw [hsig])).elim)
  have hsplit : settle sig ⟨.live, initial⟩ (a ++ e :: b) =
      settle sig ((settle sig ⟨.live, initial⟩ a).next (sig e)) b := settle_append _ a (e :: b)
  rw [hl, hsplit, operationalClass_aborted hp, hr]
  rfl

/-- Without cancellation and hard failure the run waits from its first timeout on. -/
theorem settle_timeout {s : Standing} {l : List ε} (hs : s.phase ≠ .aborted) (hc : ¬ Has sig .cancel l)
    (hh : ¬ Has sig .hardFailure l) :
    (settle sig s l).phase = if Has sig .timeout l then .waiting else s.phase := by
  induction l generalizing s with
  | nil => simp [settle, Has]
  | cons e rest ih =>
    have hrest : ∀ c, ¬ Has sig c (e :: rest) → ¬ Has sig c rest :=
      fun c h ⟨e', he', hclass⟩ => h ⟨e', List.mem_cons_of_mem e he', hclass⟩
    have hstep : settle sig s (e :: rest) = settle sig (s.next (sig e)) rest := rfl
    rcases hsig : sig e with ⟨c, carried⟩
    cases c with
    | cancel => exact (hc ⟨e, List.mem_cons_self, by rw [hsig]⟩).elim
    | hardFailure => exact (hh ⟨e, List.mem_cons_self, by rw [hsig]⟩).elim
    | timeout =>
      have hnext : (s.next (sig e)).phase = .waiting := by simp [hsig, Standing.next, hs]
      have hhas : Has sig .timeout (e :: rest) := ⟨e, List.mem_cons_self, by rw [hsig]⟩
      rw [hstep, ih (by simp [hnext]) (hrest _ hc) (hrest _ hh), hnext, if_pos hhas]
      split <;> rfl
    | externalCallback =>
      have hnext : s.next (sig e) = s := by simp [hsig, Standing.next]
      have hhas : Has sig .timeout (e :: rest) ↔ Has sig .timeout rest := by simp [Has, hsig]
      rw [hstep, hnext, ih hs (hrest _ hc) (hrest _ hh)]
      simp only [hhas]

/-- **The standing tells the highest class when the reasons allow it.** -/
theorem settle_eq_highest {initial : Option String} {l : List ε} (h : Told sig initial l) :
    (settle sig ⟨.live, initial⟩ l).operationalClass = highestClass sig l := by
  by_cases hc : Has sig .cancel l
  · rw [highestClass_cancel hc, settle_cancel hc (h.1 hc)]
  · by_cases hh : Has sig .hardFailure l
    · rw [highestClass_hardFailure hc hh, settle_hardFailure hc hh (h.2.1 hc hh)]
    · rcases h.2.2 hc hh with rfl | ht
      · rfl
      · have hphase := settle_timeout (s := ⟨.live, initial⟩) (by simp) hc hh
        rw [if_pos ht] at hphase
        rw [highestClass_timeout hc hh ht]
        simp [Standing.operationalClass, hphase]

/-! ### Needed -/

theorem perm_first {e : ε} {l : List ε} (h : e ∈ l) : ∃ rest, (e :: rest).Perm l := by
  obtain ⟨a, b, rfl⟩ := List.append_of_mem h
  exact ⟨a ++ b, List.perm_middle.symm⟩

theorem perm_last {e : ε} {l : List ε} (h : e ∈ l) : ∃ rest, (rest ++ [e]).Perm l := by
  obtain ⟨rest, hrest⟩ := perm_first h
  exact ⟨rest, (@List.perm_append_comm _ rest [e]).trans hrest⟩

theorem perm_first_two {e f : ε} {l : List ε} (he : e ∈ l) (hf : f ∈ l) (hne : f ≠ e) :
    ∃ rest, (e :: f :: rest).Perm l := by
  obtain ⟨rest, hrest⟩ := perm_first he
  have hf' : f ∈ rest := by
    rcases List.mem_cons.mp (hrest.mem_iff.mpr hf) with h | h
    · exact (hne h).elim
    · exact h
  obtain ⟨rest', hrest'⟩ := perm_first hf'
  exact ⟨rest', (hrest'.cons e).trans hrest⟩

theorem has_perm {c : OperationalClass} {l l' : List ε} (h : l'.Perm l) : Has sig c l' ↔ Has sig c l := by
  simp only [Has, h.mem_iff]

theorem highestClass_perm {l l' : List ε} (h : l'.Perm l) : highestClass sig l' = highestClass sig l := by
  simp only [highestClass, has_perm h]

theorem told_perm {initial : Option String} {l l' : List ε} (hp : l'.Perm l) (h : Told sig initial l) :
    Told sig initial l' := by
  refine ⟨fun hc => ?_, fun hc hh => ?_, fun hc hh => ?_⟩
  · obtain ⟨hown, hothers⟩ := h.1 ((has_perm hp).mp hc)
    simp only [← hp.mem_iff] at hown hothers
    exact ⟨hown, hothers⟩
  · obtain ⟨hown, hothers⟩ := h.2.1 (fun h' => hc ((has_perm hp).mpr h')) ((has_perm hp).mp hh)
    simp only [← hp.mem_iff] at hown hothers
    exact ⟨hown, hothers⟩
  · rcases h.2.2 (fun h' => hc ((has_perm hp).mpr h')) (fun h' => hh ((has_perm hp).mpr h')) with rfl | ht
    · exact .inl (List.perm_nil.mp hp)
    · exact .inr ((has_perm hp).mpr ht)

/-- Every order settles in the highest class. -/
def Settled (sig : ε → Signal) (initial : Option String) (l : List ε) : Prop :=
  ∀ l' : List ε, l'.Perm l →
    (settle sig ⟨.live, initial⟩ l').operationalClass = highestClass sig l

section
variable {initial : Option String} {l : List ε}

/-- A reason that can be left standing must tell the highest class. -/
theorem Settled.standing_tells (h : Settled sig initial l) (front rest : List ε) {r : String}
    (hp : (front ++ rest).Perm l)
    (hfront : settle sig ⟨.live, initial⟩ front = ⟨.aborted, some r⟩)
    (hrest : ∀ e ∈ rest, ∀ r', sig e ≠ (.cancel, some r')) :
    (if isCancelReason (some r) then some OperationalClass.cancel else some .hardFailure) =
      highestClass sig l := by
  have hclass := h _ hp
  rw [settle_append, hfront, settle_aborted hrest] at hclass
  exact hclass

theorem Settled.cancelTold (h : Settled sig initial l) (hc : Has sig .cancel l) :
    CancelTold sig initial l := by
  have hmention : ∀ r, (if isCancelReason (some r) then some OperationalClass.cancel
      else some .hardFailure) = highestClass sig l → isCancelReason (some r) = true := by
    intro r hr
    rw [highestClass_cancel hc] at hr
    by_contra hne
    rw [if_neg hne] at hr
    cases hr
  refine ⟨?_, ?_⟩
  · -- A cancellation that comes last has the last word.
    intro e he r hsig
    obtain ⟨rest, hp⟩ := perm_last he
    refine hmention r (h.standing_tells (rest ++ [e]) [] (by simpa using hp) ?_
      (fun _ h => nomatch h))
    rw [settle_append]
    show (settle sig _ rest).next (sig e) = _
    rw [hsig]
    rfl
  · intro hsilent
    obtain ⟨c, hcmem, hclass⟩ := hc
    have hsig : sig c = (.cancel, none) := by
      rcases hs : sig c with ⟨k, carried⟩
      obtain rfl : k = .cancel := by rw [hs] at hclass; exact hclass
      cases carried with
      | none => rfl
      | some r => exact (hsilent c hcmem r hs).elim
    refine ⟨?_, ?_⟩
    · cases hinit : initial with
      | none => exact .inl rfl
      | some r =>
        obtain ⟨rest, hp⟩ := perm_first hcmem
        refine .inr (hmention r (h.standing_tells [c] rest hp ?_ ?_))
        · show Standing.next ⟨.live, initial⟩ (sig c) = _
          rw [hsig, hinit]
          rfl
        · exact fun e he => hsilent e (hp.mem_iff.mp (List.mem_cons_of_mem _ he))
    · intro e he r hkind
      rcases hkind with htimeout | hfailure
      · have hne : c ≠ e := by
          intro hsame
          obtain rfl := hsame
          rw [hsig] at htimeout
          cases htimeout
        obtain ⟨rest, hp⟩ := perm_first_two he hcmem hne
        refine hmention r (h.standing_tells [e, c] rest hp ?_ ?_)
        · show (Standing.next ⟨.live, initial⟩ (sig e)).next (sig c) = _
          rw [htimeout, hsig]
          rfl
        · exact fun e' he' => hsilent e'
            (hp.mem_iff.mp (List.mem_cons_of_mem _ (List.mem_cons_of_mem _ he')))
      · obtain ⟨rest, hp⟩ := perm_first he
        refine hmention r (h.standing_tells [e] rest hp ?_ ?_)
        · show Standing.next ⟨.live, initial⟩ (sig e) = _
          rw [hfailure]
          rfl
        · exact fun e' he' => hsilent e' (hp.mem_iff.mp (List.mem_cons_of_mem _ he'))

theorem Settled.failureTold (h : Settled sig initial l) (hc : ¬ Has sig .cancel l)
    (hh : Has sig .hardFailure l) : FailureTold sig initial l := by
  have hsilent : ∀ e ∈ l, ∀ r, sig e ≠ (.cancel, some r) :=
    fun e he r hsig => hc ⟨e, he, by rw [hsig]⟩
  have hmention : ∀ r, (if isCancelReason (some r) then some OperationalClass.cancel
      else some .hardFailure) = highestClass sig l → isCancelReason (some r) = false := by
    intro r hr
    rw [highestClass_hardFailure hc hh] at hr
    by_contra hne
    rw [if_pos (by simpa using hne)] at hr
    cases hr
  refine ⟨?_, ?_⟩
  · intro e he r hsig
    obtain ⟨rest, hp⟩ := perm_first he
    refine hmention r (h.standing_tells [e] rest hp ?_ ?_)
    · show Standing.next ⟨.live, initial⟩ (sig e) = _
      rw [hsig]
      rfl
    · exact fun e' he' => hsilent e' (hp.mem_iff.mp (List.mem_cons_of_mem _ he'))
  · -- A failure without a reason keeps the one that was there.
    intro hexists
    obtain ⟨f, hf, hbare⟩ := hexists
    refine ⟨?_, ?_⟩
    · cases hinit : initial with
      | none => rfl
      | some r =>
        obtain ⟨rest, hp⟩ := perm_first hf
        refine hmention r (h.standing_tells [f] rest hp ?_ ?_)
        · show Standing.next ⟨.live, initial⟩ (sig f) = _
          rw [hbare, hinit]
          rfl
        · exact fun e he => hsilent e (hp.mem_iff.mp (List.mem_cons_of_mem _ he))
    · intro e he r htimeout
      have hne : f ≠ e := by
        intro hsame
        obtain rfl := hsame
        rw [hbare] at htimeout
        cases htimeout
      obtain ⟨rest, hp⟩ := perm_first_two he hf hne
      refine hmention r (h.standing_tells [e, f] rest hp ?_ ?_)
      · show (Standing.next ⟨.live, initial⟩ (sig e)).next (sig f) = _
        rw [htimeout, hbare]
        rfl
      · exact fun e' he' => hsilent e'
          (hp.mem_iff.mp (List.mem_cons_of_mem _ (List.mem_cons_of_mem _ he')))

/-- Callbacks alone leave no class at all. -/
theorem Settled.timeout_of_rest (h : Settled sig initial l) (hc : ¬ Has sig .cancel l)
    (hh : ¬ Has sig .hardFailure l) : l = [] ∨ Has sig .timeout l := by
  by_cases ht : Has sig .timeout l
  · exact .inr ht
  · refine .inl (List.eq_nil_iff_forall_not_mem.mpr (fun e he => ?_))
    have hphase := settle_timeout (s := ⟨.live, initial⟩) (by simp) hc hh
    rw [if_neg ht] at hphase
    have hclass := h l (List.Perm.refl l)
    simp only [Standing.operationalClass, hphase] at hclass
    exact highestClass_ne_none he hclass.symm

/-- **When order does not matter.** Every order of the events settles in the highest
class exactly when the reasons tell it. -/
theorem settled_iff_told : Settled sig initial l ↔ Told sig initial l :=
  ⟨fun h => ⟨h.cancelTold, h.failureTold, h.timeout_of_rest⟩,
    fun h _ hp => (settle_eq_highest (told_perm hp h)).trans (highestClass_perm hp)⟩

end
end

/-! ### The projection -/

/-- The operational events: the class and the carried reason. -/
def signalOf (e : RuntimeEvent) : Signal :=
  ((eventOperationalPriority e.eventType).getD .externalCallback, payloadText e "reason")

/-- The event has an operational class. -/
def Operational (e : RuntimeEvent) : Prop := eventOperationalPriority e.eventType ≠ none

instance (e : RuntimeEvent) : Decidable (Operational e) := inferInstanceAs (Decidable (_ ≠ _))

def phaseOf : RunLifecycleState → Phase
  | .aborted => .aborted
  | .waitingExternal => .waiting
  | _ => .live

@[simp] theorem phaseOf_aborted : phaseOf .aborted = .aborted := rfl
@[simp] theorem phaseOf_waitingExternal : phaseOf .waitingExternal = .waiting := rfl
@[simp] theorem phaseOf_ready : phaseOf .ready = .live := rfl

def standing (p : RunProjection) : Standing := ⟨phaseOf p.lifecycleState, p.recoveryReason⟩

theorem operationalClass_standing (p : RunProjection) :
    (standing p).operationalClass = projectionOperationalPriority p := by
  unfold standing Standing.operationalClass projectionOperationalPriority
  cases p.lifecycleState <;> rfl

/-- The event types of each class. -/
theorem eventType_of_class {t : String} {c : OperationalClass} (h : eventOperationalPriority t = some c) :
    match c with
    | .cancel => t = "run.cancel_requested"
    | .hardFailure => t = "run.recovery_aborted" ∨ t = "run.aborted"
    | .timeout => t = "run.waiting_external" ∨ t = "reconcile.failed"
    | .externalCallback => t = "signal.external_callback" ∨ t = "signal.callback" := by
  unfold eventOperationalPriority at h
  split at h
  · cases h
    assumption
  · split at h
    · cases h
      assumption
    · split at h
      · cases h
        assumption
      · split at h
        · cases h
          assumption
        · cases h

/-- The reason an operational event leaves: the one it carries or the one before. -/
theorem deriveRecoveryReason_operational {e : RuntimeEvent} (h : Operational e)
    (fallback : Option String) :
    deriveRecoveryReason e fallback = (payloadText e "reason").or fallback := by
  have hnone : ∀ t ∈ ["run.ready", "run.completed", "run.created"], eventOperationalPriority t = none := by
    decide
  have hother : e.eventType ∉ ["run.ready", "run.completed", "run.created"] :=
    fun hmem => h (hnone _ hmem)
  unfold deriveRecoveryReason
  cases payloadText e "reason" with
  | some r => rfl
  | none => simp only [hother, if_false, Option.none_or]

/-- The states operational events lead to from an open run. -/
def contested : List RunLifecycleState := [.created, .ready, .dispatching, .waitingExternal, .aborted]

/-- When an operational event is turned away. -/
theorem blocked_operational {p : RunProjection} {e : RuntimeEvent} {c : OperationalClass}
    (hp : p.lifecycleState ∈ contested) (hc : eventOperationalPriority e.eventType = some c) :
    blockedByTerminalOrPriority p e =
      match phaseOf p.lifecycleState with
      | .aborted => decide (c ≠ .cancel)
      | .waiting => decide (c = .externalCallback)
      | .live => false := by
  have hcancel : decide (e.eventType ≠ "run.cancel_requested") = decide (c ≠ .cancel) := by
    have ht := eventType_of_class hc
    cases c with
    | cancel => simp [ht]
    | hardFailure => rcases ht with ht | ht <;> simp [ht]
    | timeout => rcases ht with ht | ht <;> simp [ht]
    | externalCallback => rcases ht with ht | ht <;> simp [ht]
  simp only [blockedByTerminalOrPriority, isLowerPriorityOperationalConflict, hc, hcancel,
    projectionOperationalPriority]
  simp only [contested, List.mem_cons, List.not_mem_nil, or_false] at hp
  rcases hp with hp | hp | hp | hp | hp <;> rw [hp] <;> cases c <;> try rfl
  all_goals cases isCancelReason p.recoveryReason <;> rfl

/-- What an event of a class does when it is not turned away. -/
def entered (carried reason : Option String) : OperationalClass → Lifecycle × Option String
  | .cancel => (⟨.aborted, false, false, some .abort⟩,
      some ((carried.or reason).getD "cancel_requested"))
  | .hardFailure => (⟨.aborted, false, false, some .abort⟩, carried.or reason)
  | .timeout => (⟨.waitingExternal, true, false, some .humanEscalation⟩, carried.or reason)
  | .externalCallback => (⟨.ready, false, true, none⟩, reason)

theorem resolve_operational {p : RunProjection} {e : RuntimeEvent} {c : OperationalClass}
    (hc : eventOperationalPriority e.eventType = some c)
    (hfree : blockedByTerminalOrPriority p e = false) :
    resolveProjectionTransition p e = entered (payloadText e "reason") p.recoveryReason c := by
  have hreason : ∀ fallback, deriveRecoveryReason e fallback = (payloadText e "reason").or fallback :=
    deriveRecoveryReason_operational (by simp [Operational, hc])
  have ht := eventType_of_class hc
  simp only [resolveProjectionTransition, hfree, deriveCancelReason, hreason]
  cases c with
  | cancel => rw [ht]; rfl
  | hardFailure => rcases ht with ht | ht <;> rw [ht] <;> rfl
  | timeout => rcases ht with ht | ht <;> rw [ht] <;> rfl
  | externalCallback => rcases ht with ht | ht <;> rw [ht] <;> rfl

/-- **The projection follows its standing.** -/
theorem standing_apply {p : RunProjection} {e : RuntimeEvent} (hp : p.lifecycleState ∈ contested)
    (he : Operational e) :
    standing (applyProjectionEvent p e) = (standing p).next (signalOf e) ∧
      (applyProjectionEvent p e).lifecycleState ∈ contested := by
  obtain ⟨c, hc⟩ := Option.ne_none_iff_exists'.mp he
  have hsig : signalOf e = (c, payloadText e "reason") := by simp only [signalOf, hc, Option.getD_some]
  have hblocked := blocked_operational hp hc
  rw [hsig]
  cases hb : blockedByTerminalOrPriority p e with
  | true =>
    rw [hb] at hblocked
    have hsame := resolveProjectionTransition_of_blocked hb
    refine ⟨?_, by simpa [applyProjectionEvent, hsame, projectionUnchangedState] using hp⟩
    have hkeep : standing (applyProjectionEvent p e) = standing p := by
      simp [standing, applyProjectionEvent, hsame, projectionUnchangedState]
    rw [hkeep]
    cases hphase : phaseOf p.lifecycleState with
    | aborted =>
      rw [hphase] at hblocked
      cases c with
      | cancel => simp at hblocked
      | hardFailure => simp [standing, hphase, Standing.next]
      | timeout => simp [standing, hphase, Standing.next]
      | externalCallback => rfl
    | waiting =>
      rw [hphase] at hblocked
      obtain rfl : c = .externalCallback := by simpa using hblocked
      rfl
    | live =>
      rw [hphase] at hblocked
      cases hblocked
  | false =>
    rw [hb] at hblocked
    have hentered := resolve_operational hc hb
    cases c with
    | cancel => simp [standing, applyProjectionEvent, hentered, entered, Standing.next, contested]
    | hardFailure =>
      have hphase : phaseOf p.lifecycleState ≠ .aborted := by
        intro hphase
        rw [hphase] at hblocked
        simp at hblocked
      simp [standing, applyProjectionEvent, hentered, entered, Standing.next, contested, hphase]
    | timeout =>
      have hphase : phaseOf p.lifecycleState ≠ .aborted := by
        intro hphase
        rw [hphase] at hblocked
        simp at hblocked
      simp [standing, applyProjectionEvent, hentered, entered, Standing.next, contested, hphase]
    | externalCallback =>
      have hphase : phaseOf p.lifecycleState = .live := by
        cases hphase : phaseOf p.lifecycleState <;> rw [hphase] at hblocked <;> simp at hblocked ⊢
      simp [standing, applyProjectionEvent, hentered, entered, Standing.next, contested, hphase]

theorem standing_run {p : RunProjection} {l : List RuntimeEvent} (hp : p.lifecycleState ∈ contested)
    (hl : ∀ e ∈ l, Operational e) :
    standing (run applyProjectionEvent p l) = settle signalOf (standing p) l ∧
      (run applyProjectionEvent p l).lifecycleState ∈ contested := by
  induction l generalizing p with
  | nil => exact ⟨rfl, hp⟩
  | cons e rest ih =>
    obtain ⟨hstep, hnext⟩ := standing_apply hp (hl e List.mem_cons_self)
    obtain ⟨hrest, hend⟩ := ih hnext (fun e' he' => hl e' (List.mem_cons_of_mem e he'))
    refine ⟨?_, hend⟩
    rw [run_cons, hrest, hstep]
    rfl

/-! ### The lifecycle never depends on the order -/

theorem settle_phase {ε : Type} {sig : ε → Signal} {s : Standing} {l : List ε}
    (hs : s.phase ≠ .aborted) :
    (settle sig s l).phase =
      if Has sig .cancel l ∨ Has sig .hardFailure l then .aborted
      else if Has sig .timeout l then .waiting else s.phase := by
  by_cases habort : Has sig .cancel l ∨ Has sig .hardFailure l
  · rw [if_pos habort]
    have hmid : ∃ e ∈ l, ∀ s : Standing, (s.next (sig e)).phase = .aborted := by
      rcases habort with ⟨e, he, hclass⟩ | ⟨e, he, hclass⟩
      · refine ⟨e, he, fun s => ?_⟩
        rcases hsig : sig e with ⟨c, carried⟩
        obtain rfl : c = .cancel := by rw [hsig] at hclass; exact hclass
        rfl
      · refine ⟨e, he, fun s => ?_⟩
        rcases hsig : sig e with ⟨c, carried⟩
        obtain rfl : c = .hardFailure := by rw [hsig] at hclass; exact hclass
        by_cases hp : s.phase = .aborted <;> simp [Standing.next, hp]
    obtain ⟨e, he, hnext⟩ := hmid
    obtain ⟨a, b, rfl⟩ := List.append_of_mem he
    rw [settle_append]
    show (settle sig ((settle sig s a).next (sig e)) b).phase = .aborted
    refine settle_invariant (P := fun s => s.phase = .aborted) (fun _ h => h) ?_ (hnext _)
    intro standing e' _ hsame
    obtain ⟨phase, reason⟩ := standing
    obtain rfl := hsame
    rcases sig e' with ⟨c, carried⟩
    cases c <;> rfl
  · rw [if_neg habort]
    exact settle_timeout hs (fun h => habort (.inl h)) (fun h => habort (.inr h))

/-- The run is still open, whatever has been asked of it. -/
def OpenState (p : RunProjection) : Prop :=
  p.lifecycleState ∈ [RunLifecycleState.created, .ready, .dispatching]

theorem OpenState.contested {p : RunProjection} (h : OpenState p) :
    p.lifecycleState ∈ contested ∧ phaseOf p.lifecycleState = .live := by
  simp only [OpenState, List.mem_cons, List.not_mem_nil, or_false] at h
  rcases h with h | h | h <;> rw [h] <;> decide

/-- The state an open run ends in is its phase, once something has happened. -/
theorem lifecycleState_run {p : RunProjection} {l : List RuntimeEvent} (hp : OpenState p)
    (hl : ∀ e ∈ l, Operational e) :
    (run applyProjectionEvent p l).lifecycleState =
      match (settle signalOf (standing p) l).phase with
      | .aborted => .aborted
      | .waiting => .waitingExternal
      | .live => if l = [] then p.lifecycleState else .ready := by
  obtain ⟨hstanding, hend⟩ := standing_run hp.contested.1 hl
  rw [← hstanding]
  show _ = match phaseOf (run applyProjectionEvent p l).lifecycleState with
    | .aborted => _
    | .waiting => _
    | .live => _
  rcases List.eq_nil_or_concat l with rfl | ⟨front, e, rfl⟩
  · simp only [run_nil, hp.contested.2, if_true]
  · rw [List.concat_eq_append] at hend hl ⊢
    have hne : front ++ [e] ≠ [] := by simp
    simp only [hne, if_false]
    have hfront := standing_run hp.contested.1 (fun e' he' => hl e' (List.mem_append_left _ he'))
    have hop : Operational e := hl e (by simp)
    rw [run_append] at hend ⊢
    obtain ⟨c, hc⟩ := Option.ne_none_iff_exists'.mp hop
    have hblocked := blocked_operational hfront.2 hc
    simp only [run_cons, run_nil] at hend ⊢
    cases hb : blockedByTerminalOrPriority (run applyProjectionEvent p front) e with
    | true =>
      -- Nothing is turned away from a live run.
      have hsame := resolveProjectionTransition_of_blocked hb
      have hkeep : (applyProjectionEvent (run applyProjectionEvent p front) e).lifecycleState =
          (run applyProjectionEvent p front).lifecycleState := by
        simp [applyProjectionEvent, hsame, projectionUnchangedState]
      rw [hkeep] at hend ⊢
      rw [hb] at hblocked
      simp only [Projection.contested, List.mem_cons, List.not_mem_nil, or_false] at hend
      rcases hend with h | h | h | h | h <;> rw [h] at hblocked ⊢ <;> first | rfl | cases hblocked
    | false =>
      have hentered := resolve_operational hc hb
      cases c <;> simp [applyProjectionEvent, hentered, entered]

/-- **The lifecycle state never depends on the order.** -/
theorem lifecycleState_perm {p : RunProjection} {l l' : List RuntimeEvent} (hp : OpenState p)
    (hl : ∀ e ∈ l, Operational e) (hperm : l'.Perm l) :
    (run applyProjectionEvent p l').lifecycleState = (run applyProjectionEvent p l).lifecycleState := by
  have hlive : (standing p).phase ≠ .aborted := by simp [standing, hp.contested.2]
  have hnil : l' = [] ↔ l = [] := by
    constructor
    · intro hsame
      obtain rfl := hsame
      exact List.nil_perm.mp hperm
    · intro hsame
      obtain rfl := hsame
      exact List.perm_nil.mp hperm
  rw [lifecycleState_run hp hl, lifecycleState_run hp (fun e he => hl e (hperm.mem_iff.mp he)),
    settle_phase hlive, settle_phase hlive]
  simp only [has_perm hperm, hnil]

/-! ### Precedence -/

/-- Every order of the events gives the same state and the highest class present. -/
def OrderIndependent (p : RunProjection) (l : List RuntimeEvent) : Prop :=
  ∀ l' : List RuntimeEvent, l'.Perm l →
    (run applyProjectionEvent p l').lifecycleState = (run applyProjectionEvent p l).lifecycleState ∧
    projectionOperationalPriority (run applyProjectionEvent p l') = highestClass signalOf l

/-- **When precedence is independent of order.** Exactly when no reason that can be left
standing hides the highest class. -/
theorem precedence_order_independent_iff (p : RunProjection) (l : List RuntimeEvent) (hp : OpenState p)
    (hl : ∀ e ∈ l, Operational e) : OrderIndependent p l ↔ Told signalOf p.recoveryReason l := by
  have hstart : standing p = ⟨.live, p.recoveryReason⟩ := by simp [standing, hp.contested.2]
  have hclass : ∀ l' : List RuntimeEvent, l'.Perm l →
      projectionOperationalPriority (run applyProjectionEvent p l') =
        (settle signalOf ⟨.live, p.recoveryReason⟩ l').operationalClass := by
    intro l' hperm
    rw [← operationalClass_standing, ← hstart,
      (standing_run hp.contested.1 (fun e he => hl e (hperm.mem_iff.mp he))).1]
  rw [← settled_iff_told]
  constructor
  · intro h l' hperm
    rw [← hclass l' hperm]
    exact (h l' hperm).2
  · intro h l' hperm
    exact ⟨lifecycleState_perm hp hl hperm, (hclass l' hperm).trans (h l' hperm)⟩

/-- A failure and a cancellation, neither with a reason. -/
theorem precedence_order_independent_bare :
    let l := [factEvent "r" "run.aborted" 1 none, factEvent "r" "run.cancel_requested" 2 none]
    OpenState (defaultProjection "r") ∧ (∀ e ∈ l, Operational e) ∧
      OrderIndependent (defaultProjection "r") l := by
  intro l
  have hopen : OpenState (defaultProjection "r") := by unfold OpenState; decide
  have hops : ∀ e ∈ l, Operational e := by
    intro e he
    simp only [l, List.mem_cons, List.not_mem_nil, or_false] at he
    rcases he with rfl | rfl <;> decide
  have hsig : ∀ e ∈ l, (signalOf e).2 = none := by
    intro e he
    simp only [l, List.mem_cons, List.not_mem_nil, or_false] at he
    rcases he with rfl | rfl <;> rfl
  have hcarried : ∀ e ∈ l, ∀ c r, signalOf e ≠ (c, some r) := by
    intro e he c r h
    have hnone := hsig e he
    rw [h] at hnone
    cases hnone
  have hcancel : Has signalOf .cancel l := ⟨factEvent "r" "run.cancel_requested" 2 none, by simp [l], by decide⟩
  refine ⟨hopen, hops, (precedence_order_independent_iff _ l hopen hops).mpr
    ⟨fun _ => ⟨?_, fun _ => ⟨.inl rfl, ?_⟩⟩, fun h => (h hcancel).elim, fun h => (h hcancel).elim⟩⟩
  · exact fun e he r h => (hcarried e he _ r h).elim
  · exact fun e he r h => h.elim (fun h => (hcarried e he _ r h).elim) (fun h => (hcarried e he _ r h).elim)

/-- One cancellation whose reason does not say so is read back as a hard failure. -/
theorem cancel_read_as_hard_failure :
    let l := [factEvent "r" "run.cancel_requested" 1 (some [("reason", .str "stop")])]
    projectionOperationalPriority (run applyProjectionEvent (defaultProjection "r") l) =
        some .hardFailure ∧
      highestClass signalOf l = some .cancel ∧ ¬ OrderIndependent (defaultProjection "r") l := by
  have hread : projectionOperationalPriority (run applyProjectionEvent (defaultProjection "r")
      [factEvent "r" "run.cancel_requested" 1 (some [("reason", .str "stop")])]) =
        some .hardFailure := by decide
  have hhigh : highestClass signalOf
      [factEvent "r" "run.cancel_requested" 1 (some [("reason", .str "stop")])] = some .cancel := by
    decide
  refine ⟨hread, hhigh, fun h => ?_⟩
  have hclass := (h _ (List.Perm.refl _)).2
  rw [hread, hhigh] at hclass
  cases hclass

end AgentKernel.Projection
