import AgentKernel.Lib.Run
import Mathlib.Data.List.Induction

/-! Counters that are set back.

A counter that one kind of step sets back to zero and another kind counts up, and that the other
steps leave, has the number of steps that counted since it was last set back. Which kind a step is
may depend on the state it is taken in. -/
namespace AgentKernel.Lib

variable {σ ε : Type}

/-- The steps of a run, each with the state it is taken in. -/
def trail (next : σ → ε → σ) : σ → List ε → List (σ × ε)
  | _, [] => []
  | s, e :: rest => (s, e) :: trail next (next s e) rest

theorem trail_concat (next : σ → ε → σ) (s : σ) (es : List ε) (e : ε) :
    trail next s (es ++ [e]) = trail next s es ++ [(run next s es, e)] := by
  induction es generalizing s with
  | nil => rfl
  | cons first rest ih =>
    rw [List.cons_append, trail, ih]
    rfl

/-- The steps that count, of those after the last that sets back. -/
def tally (resets counts : σ → ε → Bool) (steps : List (σ × ε)) : Nat :=
  (steps.reverse.takeWhile (fun step => !resets step.1 step.2)).countP (fun step => counts step.1 step.2)

section
variable {resets counts : σ → ε → Bool} {steps : List (σ × ε)} {s : σ} {e : ε}

theorem tally_reset (h : resets s e = true) : tally resets counts (steps ++ [(s, e)]) = 0 := by
  simp [tally, h]

theorem tally_concat (h : resets s e = false) :
    tally resets counts (steps ++ [(s, e)]) = tally resets counts steps + (counts s e).toNat := by
  unfold tally
  rw [List.reverse_append, List.reverse_singleton, List.singleton_append,
    List.takeWhile_cons_of_pos (by simp [h]), List.countP_cons]
  cases counts s e <;> rfl

end

/-- What a step does to a counter that is not always there: it comes into being at zero, and a step
that does not set it back adds at most one to what it was. -/
def Tallies (next : σ → ε → σ) (resets counts : σ → ε → Bool) (value : σ → Option Nat) : Prop :=
  ∀ s e n, value (next s e) = some n →
    if resets s e then n = 0 else ∃ before, value s = some before ∧ n = before + (counts s e).toNat

/-- **Tally rule.** A counter that was not there at the start has, in every run after which it is
there, the number of steps that counted since the last that set it back. -/
theorem run_tally {next : σ → ε → σ} {resets counts : σ → ε → Bool} {value : σ → Option Nat}
    (step : Tallies next resets counts value) {s : σ} (hnew : value s = none) (es : List ε) {n : Nat}
    (h : value (run next s es) = some n) : n = tally resets counts (trail next s es) := by
  induction es using List.reverseRecOn generalizing n with
  | nil => exact absurd (hnew.symm.trans h) nofun
  | append_singleton es e ih =>
    rw [run_append] at h
    rw [trail_concat]
    have hstep := step _ e n h
    cases hresets : resets (run next s es) e with
    | true =>
      rw [hresets, if_pos rfl] at hstep
      rw [tally_reset hresets]
      exact hstep
    | false =>
      rw [hresets, if_neg Bool.false_ne_true] at hstep
      obtain ⟨before, hbefore, hn⟩ := hstep
      rw [tally_concat hresets, ← ih hbefore]
      exact hn

end AgentKernel.Lib
