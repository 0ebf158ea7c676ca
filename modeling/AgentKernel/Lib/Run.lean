import Mathlib.Data.List.Basic
import Mathlib.Data.List.Induction

/-! Runs of a step function.

A system is a function that takes one label at a time; a run is a list of
labels. A label that cannot be taken leaves the state as it is, so every list is
a run and an interleaving is nothing but an order of labels. The rules below are
the only inductions over runs the rest of the development needs: what every step
keeps, every run keeps. -/
namespace AgentKernel.Lib

variable {σ ε : Type}

/-- Take the labels one after the other. -/
def run (next : σ → ε → σ) : σ → List ε → σ
  | s, [] => s
  | s, e :: rest => run next (next s e) rest

@[simp] theorem run_nil (next : σ → ε → σ) (s : σ) : run next s [] = s := rfl

@[simp] theorem run_cons (next : σ → ε → σ) (s : σ) (e : ε) (rest : List ε) :
    run next s (e :: rest) = run next (next s e) rest := rfl

theorem run_append (next : σ → ε → σ) (s : σ) (a b : List ε) :
    run next s (a ++ b) = run next (run next s a) b := by
  induction a generalizing s with
  | nil => rfl
  | cons e rest ih => exact ih _

/-- **Invariant rule.** What every step keeps, every run keeps. -/
theorem run_invariant {next : σ → ε → σ} {I : σ → Prop}
    (step : ∀ s e, I s → I (next s e)) {s : σ} (h : I s) (es : List ε) :
    I (run next s es) := by
  induction es generalizing s with
  | nil => exact h
  | cons e rest ih => exact ih (step s e h)

/-- The same when the steps keep the invariant only on labels of a kind. -/
theorem run_invariant_of {next : σ → ε → σ} {I : σ → Prop} {A : ε → Prop}
    (step : ∀ s e, A e → I s → I (next s e)) {s : σ} (h : I s) (es : List ε)
    (allowed : ∀ e ∈ es, A e) : I (run next s es) := by
  induction es generalizing s with
  | nil => exact h
  | cons e rest ih =>
    exact ih (step s e (allowed e List.mem_cons_self) h)
      (fun e' he => allowed e' (List.mem_cons_of_mem e he))

/-- Every step of the run meets the condition, in the state it is taken in. -/
def Along (next : σ → ε → σ) (C : σ → ε → Prop) : σ → List ε → Prop
  | _, [] => True
  | s, e :: rest => C s e ∧ Along next C (next s e) rest

instance decidableAlong (next : σ → ε → σ) (C : σ → ε → Prop) [inst : ∀ s e, Decidable (C s e)] :
    (s : σ) → (es : List ε) → Decidable (Along next C s es)
  | _, [] => .isTrue trivial
  | s, e :: rest =>
    match inst s e, decidableAlong next C (next s e) rest with
    | .isTrue h, .isTrue hrest => .isTrue ⟨h, hrest⟩
    | .isFalse h, _ => .isFalse (fun hc => h hc.1)
    | _, .isFalse h => .isFalse (fun hc => h hc.2)

theorem Along.mono {next : σ → ε → σ} {C C' : σ → ε → Prop} (hc : ∀ s e, C s e → C' s e) {s : σ}
    {es : List ε} (h : Along next C s es) : Along next C' s es := by
  induction es generalizing s with
  | nil => exact trivial
  | cons e rest ih => exact ⟨hc s e h.1, ih h.2⟩

/-- A condition on the labels alone can be added. -/
theorem Along.and_of_mem {next : σ → ε → σ} {C : σ → ε → Prop} {D : ε → Prop} {s : σ} {es : List ε}
    (h : Along next C s es) (hd : ∀ e ∈ es, D e) : Along next (fun s e => C s e ∧ D e) s es := by
  induction es generalizing s with
  | nil => exact trivial
  | cons e rest ih =>
    exact ⟨⟨h.1, hd e List.mem_cons_self⟩, ih h.2 (fun e' he => hd e' (List.mem_cons_of_mem e he))⟩

/-- What every step that meets a condition keeps, every run of such steps keeps. -/
theorem run_invariant_along {next : σ → ε → σ} {C : σ → ε → Prop} {I : σ → Prop}
    (step : ∀ s e, C s e → I s → I (next s e)) {s : σ} (h : I s) (es : List ε)
    (along : Along next C s es) : I (run next s es) := by
  induction es generalizing s with
  | nil => exact h
  | cons e rest ih => exact ih (step s e along.1 h) along.2

theorem Along.of_forall {next : σ → ε → σ} {C : σ → ε → Prop} (h : ∀ s e, C s e) (s : σ)
    (es : List ε) : Along next C s es := by
  induction es generalizing s with
  | nil => exact trivial
  | cons e rest ih => exact ⟨h s e, ih _⟩

/-- The condition read at every prefix. -/
theorem along_iff_forall_prefix {next : σ → ε → σ} {C : σ → ε → Prop} {s : σ} {es : List ε} :
    Along next C s es ↔ ∀ pre e, pre ++ [e] <+: es → C (run next s pre) e := by
  induction es generalizing s with
  | nil =>
    refine ⟨fun _ pre e hpre => ?_, fun _ => trivial⟩
    exact absurd (List.prefix_nil.mp hpre) (by simp)
  | cons e rest ih =>
    constructor
    · intro h pre e' hpre
      cases pre with
      | nil =>
        obtain ⟨rfl, _⟩ := List.cons_prefix_cons.mp hpre
        exact h.1
      | cons first pre =>
        obtain ⟨rfl, hrest⟩ := List.cons_prefix_cons.mp hpre
        exact ih.mp h.2 pre e' hrest
    · intro h
      refine ⟨h [] e ⟨rest, rfl⟩, ih.mpr (fun pre e' hpre => ?_)⟩
      exact h (e :: pre) e' (List.cons_prefix_cons.mpr ⟨rfl, hpre⟩)

theorem Along.congr {next : σ → ε → σ} {C C' : σ → ε → Prop} (h : ∀ s e, C s e ↔ C' s e) {s : σ}
    {es : List ε} : Along next C s es ↔ Along next C' s es :=
  ⟨Along.mono (fun s e => (h s e).mp), Along.mono (fun s e => (h s e).mpr)⟩

theorem along_append {next : σ → ε → σ} {C : σ → ε → Prop} {s : σ} {a b : List ε} :
    Along next C s (a ++ b) ↔ Along next C s a ∧ Along next C (run next s a) b := by
  induction a generalizing s with
  | nil => exact ⟨fun h => ⟨trivial, h⟩, fun h => h.2⟩
  | cons e rest ih =>
    constructor
    · intro h
      obtain ⟨hrest, hb⟩ := ih.mp h.2
      exact ⟨⟨h.1, hrest⟩, hb⟩
    · intro h
      exact ⟨h.1.1, ih.mpr ⟨h.1.2, h.2⟩⟩

/-- A condition on the labels alone, read off. -/
theorem Along.forall_mem {next : σ → ε → σ} {D : ε → Prop} {s : σ} {es : List ε}
    (h : Along next (fun _ e => D e) s es) : ∀ e ∈ es, D e := by
  induction es generalizing s with
  | nil => exact fun _ he => nomatch he
  | cons e rest ih =>
    intro e' he
    rcases List.mem_cons.mp he with rfl | he
    · exact h.1
    · exact ih h.2 e' he

/-- Two conditions that are the same in every good state are the same along a run that stays
in good states. -/
theorem Along.congr_of_invariant {next : σ → ε → σ} {I : σ → Prop} {A C C' : σ → ε → Prop}
    (keeps : ∀ s e, A s e → I s → I (next s e)) (same : ∀ s e, A s e → I s → (C s e ↔ C' s e)) {s : σ}
    (h : I s) {es : List ε} (allowed : Along next A s es) :
    Along next C s es ↔ Along next C' s es := by
  induction es generalizing s with
  | nil => exact Iff.rfl
  | cons e rest ih =>
    exact and_congr (same s e allowed.1 h) (ih (keeps s e allowed.1 h) allowed.2)

/-- **Exactness rule.** Where every step from a good state reaches a property exactly under a
condition, and then reaches a good state again, a run has the property throughout exactly
when every step of it meets the condition. -/
theorem forall_prefix_iff_along {next : σ → ε → σ} {I J : σ → Prop} {A C : σ → ε → Prop}
    (holds : ∀ s, J s → I s) (exact : ∀ s e, A s e → J s → (I (next s e) ↔ C s e))
    (keeps : ∀ s e, A s e → J s → C s e → J (next s e)) {s : σ} (h : J s) {es : List ε}
    (allowed : Along next A s es) :
    (∀ pre, pre <+: es → I (run next s pre)) ↔ Along next C s es := by
  induction es generalizing s with
  | nil =>
    refine ⟨fun _ => trivial, fun _ pre hpre => ?_⟩
    rw [List.prefix_nil.mp hpre]
    exact holds s h
  | cons e rest ih =>
    constructor
    · intro hall
      have hstep : C s e := (exact s e allowed.1 h).mp (hall [e] ⟨rest, rfl⟩)
      refine ⟨hstep, (ih (keeps s e allowed.1 h hstep) allowed.2).mp (fun pre hpre => ?_)⟩
      exact hall (e :: pre) (List.cons_prefix_cons.mpr ⟨rfl, hpre⟩)
    · intro halong pre hpre
      cases pre with
      | nil => exact holds s h
      | cons e' pre =>
        obtain ⟨rfl, hrest⟩ := List.cons_prefix_cons.mp hpre
        exact (ih (keeps s e' allowed.1 h halong.1) allowed.2).mpr halong.2 pre hrest

/-- **History rule.** Where the condition of a step, after steps that met theirs, can be told
from the labels before it, so can that of a run. -/
theorem along_iff_history {next : σ → ε → σ} {C : σ → ε → Prop} {D : List ε → ε → Prop} {s : σ}
    (h : ∀ es e, Along next C s es → (C (run next s es) e ↔ D es e)) (es : List ε) :
    Along next C s es ↔ ∀ before e, before ++ [e] <+: es → D before e := by
  constructor
  · rintro halong before e ⟨rest, rfl⟩
    obtain ⟨hbefore, he⟩ := along_append.mp (along_append.mp halong).1
    exact (h before e hbefore).mp he.1
  · induction es using List.reverseRecOn with
    | nil => exact fun _ => trivial
    | append_singleton es e ih =>
      intro hall
      have hes := ih (fun before e' hpre => hall before e' (hpre.trans (List.prefix_append es [e])))
      exact along_append.mpr ⟨hes, (h es e hes).mpr (hall es e List.prefix_rfl), trivial⟩

/-- A step of a kind was taken, and every step since then met the condition. -/
def Since (next : σ → ε → σ) (A C : σ → ε → Prop) (s : σ) (es : List ε) : Prop :=
  ∃ before e since, es = before ++ e :: since ∧ A (run next s before) e ∧
    Along next C (run next s (before ++ [e])) since

theorem not_since_nil {next : σ → ε → σ} {A C : σ → ε → Prop} {s : σ} : ¬ Since next A C s [] := by
  rintro ⟨before, e, since, hes, -⟩
  exact List.append_ne_nil_of_right_ne_nil before (List.cons_ne_nil e since) hes.symm

/-- The last step is of the kind, or it meets the condition and one before was of the kind. -/
theorem since_append {next : σ → ε → σ} {A C : σ → ε → Prop} {s : σ} {es : List ε} {e : ε} :
    Since next A C s (es ++ [e]) ↔
      A (run next s es) e ∨ Since next A C s es ∧ C (run next s es) e := by
  constructor
  · rintro ⟨before, e', since, hes, hkind, hsince⟩
    rcases List.eq_nil_or_concat' since with rfl | ⟨since, last, rfl⟩
    · obtain ⟨rfl, hlast⟩ := List.append_inj' hes rfl
      obtain rfl := List.singleton_inj.mp hlast
      exact .inl hkind
    · rw [← List.cons_append, ← List.append_assoc] at hes
      obtain ⟨rfl, hlast⟩ := List.append_inj' hes rfl
      obtain rfl := List.singleton_inj.mp hlast
      obtain ⟨hsince, hlast, -⟩ := along_append.mp hsince
      rw [← run_append, List.append_assoc] at hlast
      exact .inr ⟨⟨before, e', since, rfl, hkind, hsince⟩, hlast⟩
  · rintro (hkind | ⟨⟨before, e', since, rfl, hkind, hsince⟩, hlast⟩)
    · exact ⟨es, e, [], rfl, hkind, trivial⟩
    · refine ⟨before, e', since ++ [e], by simp, hkind, along_append.mpr ⟨hsince, ?_, trivial⟩⟩
      rw [← run_append, List.append_assoc]
      exact hlast

/-- **Simulation rule.** Two systems that take the same labels stay related when every
step keeps them so. -/
theorem run_related {τ : Type} {next : σ → ε → σ} {next' : τ → ε → τ} {R : σ → τ → Prop}
    {A : ε → Prop} (step : ∀ s t e, A e → R s t → R (next s e) (next' t e)) {s : σ} {t : τ}
    (h : R s t) (es : List ε) (allowed : ∀ e ∈ es, A e) :
    R (run next s es) (run next' t es) := by
  induction es generalizing s t with
  | nil => exact h
  | cons e rest ih =>
    exact ih (step s t e (allowed e List.mem_cons_self) h)
      (fun e' he => allowed e' (List.mem_cons_of_mem e he))

end AgentKernel.Lib
