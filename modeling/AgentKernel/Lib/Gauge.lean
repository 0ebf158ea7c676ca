import Mathlib.Data.List.Induction
import Mathlib.Data.List.Infix

/-! A count that never falls below zero.

Such a count goes up, and down as far as it can. It is never lower than what went up less what
went down, and it is exactly that as long as at no time more has gone down than up
(`clamped_exact_iff`): what it was once kept from, it is too high by ever after. -/
namespace AgentKernel.Lib

/-- A count goes up, or down if it can. -/
inductive Change where
  | up
  | down
  deriving DecidableEq, Repr

def Change.apply (n : Nat) : Change → Nat
  | .up => n + 1
  | .down => n - 1

def ups (changes : List Change) : Nat := changes.count .up

def downs (changes : List Change) : Nat := changes.count .down

/-- The count after the changes. -/
def clamped (changes : List Change) : Nat := changes.foldl Change.apply 0

/-- At no time more have gone down than up. -/
def Covered (changes : List Change) : Prop := ∀ before, before <+: changes → downs before ≤ ups before

instance (changes : List Change) : Decidable (Covered changes) :=
  decidable_of_iff (∀ before ∈ changes.inits, downs before ≤ ups before) (by simp [Covered, List.mem_inits])

theorem clamped_append (changes : List Change) (c : Change) :
    clamped (changes ++ [c]) = c.apply (clamped changes) := by
  rw [clamped, List.foldl_append]
  rfl

theorem covered_append {changes : List Change} {c : Change} :
    Covered (changes ++ [c]) ↔ Covered changes ∧ downs (changes ++ [c]) ≤ ups (changes ++ [c]) := by
  constructor
  · intro h
    exact ⟨fun before hbefore => h before (hbefore.trans (List.prefix_append _ _)), h _ (List.prefix_refl _)⟩
  · rintro ⟨h, hlast⟩ before hbefore
    rw [List.prefix_concat_iff] at hbefore
    rcases hbefore with rfl | hbefore
    · exact hlast
    · exact h before hbefore

/-- The count is never too low. -/
theorem ups_le_clamped (changes : List Change) : ups changes ≤ clamped changes + downs changes := by
  induction changes using List.reverseRecOn with
  | nil => exact Nat.le_refl 0
  | append_singleton changes c ih =>
    rw [clamped_append]
    cases c with
    | up =>
      simp [ups, downs, Change.apply] at ih ⊢
      omega
    | down =>
      simp [ups, downs, Change.apply] at ih ⊢
      omega

/-- **A count that never falls below zero is right exactly when it never had to be kept from it.** -/
theorem clamped_exact_iff (changes : List Change) :
    clamped changes + downs changes = ups changes ↔ Covered changes := by
  induction changes using List.reverseRecOn with
  | nil => exact iff_of_true rfl (fun before h => by rw [List.prefix_nil.mp h]; exact Nat.le_refl 0)
  | append_singleton changes c ih =>
    have hle := ups_le_clamped changes
    rw [covered_append, ← ih, clamped_append]
    cases c with
    | up =>
      simp [ups, downs, Change.apply] at hle ⊢
      omega
    | down =>
      simp [ups, downs, Change.apply] at hle ⊢
      omega

end AgentKernel.Lib
