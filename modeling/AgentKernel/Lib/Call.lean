import Mathlib.Tactic.Common

/-! Calls: computations over a state that return or raise.

A call is core's `EStateM`: when it raises, the state it reached is kept, which is
what an exception does to the objects a method has already written. The lemmas
evaluate a call at a state, so that proofs about methods never unfold the monad. -/
namespace AgentKernel.Lib

/-- A method over state `σ` that returns an `α` or raises an `ε`. -/
abbrev Call (ε σ α : Type) := EStateM ε σ α

namespace Call
variable {ε σ α β : Type}

/-- What the caller sees: the value returned or the error raised. -/
def outcome (x : Call ε σ α) (s : σ) : Except ε α :=
  match x s with
  | .ok a _ => .ok a
  | .error e _ => .error e

/-- The state the call leaves, whether it returned or raised. -/
def after (x : Call ε σ α) (s : σ) : σ :=
  match x s with
  | .ok _ s' => s'
  | .error _ s' => s'

/-- Run a call for its effect and drop any error, as `contextlib.suppress` does. -/
def suppress (x : Call ε σ Unit) : Call ε σ Unit := tryCatch x (fun _ => pure ())

theorem pure_apply (a : α) (s : σ) : (pure a : Call ε σ α) s = .ok a s := rfl

theorem bind_apply (x : Call ε σ α) (f : α → Call ε σ β) (s : σ) :
    (x >>= f) s = match x s with
      | .ok a s' => f a s'
      | .error e s' => .error e s' := rfl

theorem map_apply (f : α → β) (x : Call ε σ α) (s : σ) :
    (f <$> x) s = match x s with
      | .ok a s' => .ok (f a) s'
      | .error e s' => .error e s' := rfl

theorem throw_apply (e : ε) (s : σ) : (throw e : Call ε σ α) s = .error e s := rfl

theorem tryCatch_apply (x : Call ε σ α) (handle : ε → Call ε σ α) (s : σ) :
    (tryCatch x handle) s = match x s with
      | .ok a s' => .ok a s'
      | .error e s' => handle e s' := by
  show EStateM.tryCatch x handle s = _
  unfold EStateM.tryCatch
  cases x s <;> rfl

theorem estate_get_apply (s : σ) : (EStateM.get : Call ε σ σ) s = .ok s s := rfl

theorem outcome_map (f : α → β) (x : Call ε σ α) (s : σ) :
    (f <$> x : Call ε σ β).outcome s = (x.outcome s).map f := by
  simp only [outcome, map_apply]
  cases x s <;> rfl

theorem after_map (f : α → β) (x : Call ε σ α) (s : σ) :
    (f <$> x : Call ε σ β).after s = x.after s := by
  simp only [after, map_apply]
  cases x s <;> rfl

/-- What a call did stays done when its error is dropped. -/
theorem after_suppress (x : Call ε σ Unit) (s : σ) : x.suppress.after s = x.after s := by
  simp only [after, suppress, tryCatch_apply]
  cases x s <;> rfl

theorem outcome_ok {x : Call ε σ α} {s s' : σ} {a : α} (h : x s = .ok a s') :
    x.outcome s = .ok a ∧ x.after s = s' := by
  simp [outcome, after, h]

theorem outcome_error {x : Call ε σ α} {s s' : σ} {e : ε} (h : x s = .error e s') :
    x.outcome s = .error e ∧ x.after s = s' := by
  simp [outcome, after, h]

/-! ### What a call keeps -/

/-- The call keeps a property of the state, whether it returns or raises. -/
def Preserves (P : σ → Prop) (x : Call ε σ α) : Prop := ∀ s, P s → P (x.after s)

section
variable {P : σ → Prop}

theorem preserves_pure (a : α) : Preserves P (pure a : Call ε σ α) := fun _ h => h

theorem preserves_throw (e : ε) : Preserves P (throw e : Call ε σ α) := fun _ h => h

theorem Preserves.map {x : Call ε σ α} (h : Preserves P x) (f : α → β) :
    Preserves P (f <$> x : Call ε σ β) := by
  intro s hs
  rw [after_map]
  exact h s hs

theorem Preserves.bind {x : Call ε σ α} {f : α → Call ε σ β} (h : Preserves P x)
    (hf : ∀ a, Preserves P (f a)) : Preserves P (x >>= f) := by
  intro s hs
  have hx := h s hs
  simp only [after, bind_apply] at hx ⊢
  cases hxs : x s with
  | ok a s' =>
    rw [hxs] at hx
    exact hf a s' hx
  | error e s' =>
    rw [hxs] at hx
    exact hx

theorem Preserves.tryCatch {x : Call ε σ α} {handle : ε → Call ε σ α} (h : Preserves P x)
    (hh : ∀ e, Preserves P (handle e)) : Preserves P (tryCatch x handle) := by
  intro s hs
  have hx := h s hs
  simp only [after, tryCatch_apply] at hx ⊢
  cases hxs : x s with
  | ok a s' =>
    rw [hxs] at hx
    exact hx
  | error e s' =>
    rw [hxs] at hx
    exact hh e s' hx

theorem Preserves.suppress {x : Call ε σ Unit} (h : Preserves P x) : Preserves P x.suppress :=
  h.tryCatch (fun _ => preserves_pure ())

/-- A call seen through a map keeps what the map of it keeps. -/
theorem Preserves.of_map {x : Call ε σ α} {f : α → β} (h : Preserves P (f <$> x : Call ε σ β)) :
    Preserves P x := by
  intro s hs
  have hx := h s hs
  rwa [after_map] at hx

end

/-! ### What a call returns -/

/-- Whatever the call returns has the property. -/
def Yields (Q : α → Prop) (x : Call ε σ α) : Prop := ∀ s a s', x s = .ok a s' → Q a

theorem yields_pure {Q : α → Prop} {a : α} (h : Q a) : Yields Q (pure a : Call ε σ α) := by
  intro s b s' hx
  rw [pure_apply] at hx
  cases hx
  exact h

theorem yields_throw (Q : α → Prop) (e : ε) : Yields Q (throw e : Call ε σ α) := by
  intro s a s' hx
  rw [throw_apply] at hx
  cases hx

theorem Yields.bind {Q : α → Prop} {R : β → Prop} {x : Call ε σ α} {f : α → Call ε σ β}
    (h : Yields Q x) (hf : ∀ a, Q a → Yields R (f a)) : Yields R (x >>= f) := by
  intro s b s' hx
  rw [bind_apply] at hx
  cases hxs : x s with
  | ok a s₁ =>
    rw [hxs] at hx
    exact hf a (h s a s₁ hxs) s₁ b s' hx
  | error e s₁ =>
    rw [hxs] at hx
    cases hx

theorem Yields.map {Q : α → Prop} {R : β → Prop} {x : Call ε σ α} {f : α → β} (h : Yields Q x)
    (hf : ∀ a, Q a → R (f a)) : Yields R (f <$> x : Call ε σ β) := by
  intro s b s' hx
  rw [map_apply] at hx
  cases hxs : x s with
  | ok a s₁ =>
    rw [hxs] at hx
    cases hx
    exact hf a (h s a _ hxs)
  | error e s₁ =>
    rw [hxs] at hx
    cases hx

theorem Yields.tryCatch {Q : α → Prop} {x : Call ε σ α} {handle : ε → Call ε σ α} (h : Yields Q x)
    (hh : ∀ e, Yields Q (handle e)) : Yields Q (tryCatch x handle) := by
  intro s a s' hx
  rw [tryCatch_apply] at hx
  cases hxs : x s with
  | ok b s₁ =>
    rw [hxs] at hx
    cases hx
    exact h s a _ hxs
  | error e s₁ =>
    rw [hxs] at hx
    exact hh e s₁ a s' hx

theorem yields_any (x : Call ε σ α) : Yields (fun _ => True) x := fun _ _ _ _ => trivial

/-! ### How a call ends -/

/-- From a state with `P` the call returns with `Q` or raises with `R`. -/
def Ends (P : σ → Prop) (x : Call ε σ α) (Q : α → σ → Prop) (R : ε → σ → Prop) : Prop :=
  ∀ s, P s → match x s with
    | .ok a s' => Q a s'
    | .error e s' => R e s'

section
variable {P P' : σ → Prop} {Q Q' : α → σ → Prop} {R R' : ε → σ → Prop}

theorem ends_pure {a : α} (h : ∀ s, P s → Q a s) : Ends P (pure a : Call ε σ α) Q R := h

theorem ends_throw {e : ε} (h : ∀ s, P s → R e s) : Ends P (throw e : Call ε σ α) Q R := h

theorem Ends.bind {M : β → σ → Prop} {x : Call ε σ β} {f : β → Call ε σ α} (h : Ends P x M R)
    (hf : ∀ b, Ends (M b) (f b) Q R) : Ends P (x >>= f) Q R := by
  intro s hs
  have hx := h s hs
  rw [bind_apply]
  cases hxs : x s with
  | ok b s' =>
    rw [hxs] at hx
    exact hf b s' hx
  | error e s' =>
    rw [hxs] at hx
    exact hx

theorem Ends.tryCatch {M : ε → σ → Prop} {x : Call ε σ α} {handle : ε → Call ε σ α}
    (h : Ends P x Q M) (hh : ∀ e, Ends (M e) (handle e) Q R) : Ends P (tryCatch x handle) Q R := by
  intro s hs
  have hx := h s hs
  rw [tryCatch_apply]
  cases hxs : x s with
  | ok a s' =>
    rw [hxs] at hx
    exact hx
  | error e s' =>
    rw [hxs] at hx
    exact hh e s' hx

theorem Ends.mono {x : Call ε σ α} (h : Ends P x Q R) (hP : ∀ s, P' s → P s)
    (hQ : ∀ a s, Q a s → Q' a s) (hR : ∀ e s, R e s → R' e s) : Ends P' x Q' R' := by
  intro s hs
  have hx := h s (hP s hs)
  cases hxs : x s with
  | ok a s' =>
    rw [hxs] at hx
    exact hQ a s' hx
  | error e s' =>
    rw [hxs] at hx
    exact hR e s' hx

end

/-! ### A call over a larger state -/

/-- The second call does over a larger state what the first one does over the part of it that
`view` shows; values are related by `R`, errors by `embed`. -/
def Mirrors {τ ε' : Type} (view : τ → σ) (embed : ε → ε') (R : α → β → Prop) (x : Call ε σ α)
    (y : Call ε' τ β) : Prop :=
  ∀ w, match x (view w) with
    | .ok a s => ∃ b w', y w = .ok b w' ∧ view w' = s ∧ R a b
    | .error e s => ∃ w', y w = .error (embed e) w' ∧ view w' = s

section
variable {τ ε' γ δ : Type} {view : τ → σ} {embed : ε → ε'} {R : α → β → Prop} {Q : γ → δ → Prop}

theorem mirrors_pure {a : α} {b : β} (h : R a b) : Mirrors view embed R (pure a) (pure b) :=
  fun w => ⟨b, w, rfl, rfl, h⟩

theorem mirrors_throw {e : ε} {e' : ε'} (h : embed e = e') : Mirrors view embed R (throw e) (throw e') := by
  subst h
  exact fun w => ⟨w, rfl, rfl⟩

theorem Mirrors.bind {x : Call ε σ α} {y : Call ε' τ β} {f : α → Call ε σ γ} {g : β → Call ε' τ δ}
    (h : Mirrors view embed R x y) (hf : ∀ a b, R a b → Mirrors view embed Q (f a) (g b)) :
    Mirrors view embed Q (x >>= f) (y >>= g) := by
  intro w
  have hw := h w
  rw [bind_apply, bind_apply]
  cases hx : x (view w) with
  | ok a s =>
    rw [hx] at hw
    obtain ⟨b, w', hy, rfl, hR⟩ := hw
    rw [hy]
    exact hf a b hR w'
  | error e s =>
    rw [hx] at hw
    obtain ⟨w', hy, hview⟩ := hw
    rw [hy]
    exact ⟨w', rfl, hview⟩

theorem Mirrors.map {x : Call ε σ α} {y : Call ε' τ β} {f : α → γ} {g : β → δ}
    (h : Mirrors view embed R x y) (hf : ∀ a b, R a b → Q (f a) (g b)) :
    Mirrors view embed Q (f <$> x) (g <$> y) := by
  intro w
  have hw := h w
  rw [map_apply, map_apply]
  cases hx : x (view w) with
  | ok a s =>
    rw [hx] at hw
    obtain ⟨b, w', hy, hview, hR⟩ := hw
    rw [hy]
    exact ⟨g b, w', rfl, hview, hf a b hR⟩
  | error e s =>
    rw [hx] at hw
    obtain ⟨w', hy, hview⟩ := hw
    rw [hy]
    exact ⟨w', rfl, hview⟩

theorem Mirrors.tryCatch {x : Call ε σ α} {y : Call ε' τ β} {handle : ε → Call ε σ α}
    {handle' : ε' → Call ε' τ β} (h : Mirrors view embed R x y)
    (hh : ∀ e, Mirrors view embed R (handle e) (handle' (embed e))) :
    Mirrors view embed R (tryCatch x handle) (tryCatch y handle') := by
  intro w
  have hw := h w
  rw [tryCatch_apply, tryCatch_apply]
  cases hx : x (view w) with
  | ok a s =>
    rw [hx] at hw
    obtain ⟨b, w', hy, hview, hR⟩ := hw
    rw [hy]
    exact ⟨b, w', rfl, hview, hR⟩
  | error e s =>
    rw [hx] at hw
    obtain ⟨w', hy, rfl⟩ := hw
    rw [hy]
    exact hh e w'

end

end Call
end AgentKernel.Lib
