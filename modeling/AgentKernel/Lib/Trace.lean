import Mathlib.Data.List.Basic

/-! Traces of several parties.

Every entry of a trace carries the party it belongs to. The history of a party is
its own entries in order; what one party adds leaves the histories of the others
alone. `Preceded` is a property of each entry and the entries before it, kept by
extending the trace with entries that have it. -/
namespace AgentKernel.Lib

variable {ι α : Type}

/-- An entry and the party it belongs to. -/
structure Tagged (ι α : Type) where
  who : ι
  what : α

/-- Entries of one party. -/
def tagged (i : ι) (entries : List α) : List (Tagged ι α) := entries.map (⟨i, ·⟩)

theorem who_of_mem_tagged {i : ι} {entries : List α} {o : Tagged ι α} (h : o ∈ tagged i entries) :
    o.who = i ∧ o.what ∈ entries := by
  obtain ⟨a, ha, rfl⟩ := List.mem_map.mp h
  exact ⟨rfl, ha⟩

/-! ### Histories -/

section
variable [DecidableEq ι]

def historyOf (i : ι) (trace : List (Tagged ι α)) : List α :=
  (trace.filter (fun o => o.who = i)).map (·.what)

theorem historyOf_append (i : ι) (a b : List (Tagged ι α)) :
    historyOf i (a ++ b) = historyOf i a ++ historyOf i b := by
  simp only [historyOf, List.filter_append, List.map_append]

theorem mem_historyOf {i : ι} {trace : List (Tagged ι α)} {a : α} :
    a ∈ historyOf i trace ↔ ⟨i, a⟩ ∈ trace := by
  simp only [historyOf, List.mem_map, List.mem_filter, decide_eq_true_eq]
  constructor
  · intro hentry
    obtain ⟨o, ⟨ho, hwho⟩, rfl⟩ := hentry
    obtain ⟨j, b⟩ := o
    obtain rfl : j = i := hwho
    exact ho
  · intro h
    exact ⟨⟨i, a⟩, ⟨h, rfl⟩, rfl⟩

theorem historyOf_tagged (i j : ι) (entries : List α) :
    historyOf i (tagged j entries) = if i = j then entries else [] := by
  induction entries with
  | nil => simp [tagged, historyOf]
  | cons a rest ih =>
    by_cases h : i = j
    · subst h
      rw [if_pos rfl] at ih ⊢
      simpa [tagged, historyOf] using ih
    · have hji : ¬ j = i := fun he => h he.symm
      simp [tagged, historyOf, h, hji]

/-- A party's own entries extend its history, and only its own. -/
theorem historyOf_extend (i j : ι) (trace : List (Tagged ι α)) (entries : List α) :
    historyOf i (trace ++ tagged j entries) =
      historyOf i trace ++ if i = j then entries else [] := by
  rw [historyOf_append, historyOf_tagged]

/-- What holds of any two entries of each history, in their order, holds of any two
entries of one party in the trace. -/
theorem pairwise_of_histories {R : α → α → Prop} {trace : List (Tagged ι α)}
    (h : ∀ i, (historyOf i trace).Pairwise R) :
    trace.Pairwise (fun a b => a.who = b.who → R a.what b.what) := by
  induction trace with
  | nil => exact List.Pairwise.nil
  | cons o rest ih =>
    have hcons : ∀ i, historyOf i (o :: rest) =
        (if i = o.who then [o.what] else []) ++ historyOf i rest :=
      fun i => by rw [← historyOf_tagged, ← historyOf_append]; rfl
    refine List.Pairwise.cons ?_ (ih (fun i => ?_))
    · intro b hb hwho
      have hhead := h o.who
      rw [hcons, if_pos rfl] at hhead
      refine List.rel_of_pairwise_cons hhead (mem_historyOf.mpr ?_)
      rw [hwho]
      exact hb
    · have htail := h i
      rw [hcons] at htail
      exact htail.sublist (List.sublist_append_right _ _)

end

/-- Where the last element of a kind stands is determined. -/
theorem eq_of_last {P : α → Prop} {pre pre' post post' : List α} {a a' : α}
    (h : pre ++ a :: post = pre' ++ a' :: post') (ha : P a) (ha' : P a')
    (hpost : ∀ b ∈ post, ¬ P b) (hpost' : ∀ b ∈ post', ¬ P b) :
    pre = pre' ∧ a = a' ∧ post = post' := by
  rcases List.append_eq_append_iff.mp h with ⟨c, hpre, hc⟩ | ⟨c, hpre, hc⟩
  · cases c with
    | nil =>
      rw [List.append_nil] at hpre
      exact ⟨hpre.symm, List.cons.inj hc⟩
    | cons b rest =>
      obtain ⟨rfl, htail⟩ := List.cons.inj hc
      exact absurd ha' (hpost a' (htail ▸ List.mem_append_right _ List.mem_cons_self))
  · cases c with
    | nil =>
      rw [List.append_nil] at hpre
      obtain ⟨rfl, rfl⟩ := List.cons.inj hc
      exact ⟨hpre, rfl, rfl⟩
    | cons b rest =>
      obtain ⟨rfl, htail⟩ := List.cons.inj hc
      exact absurd ha (hpost' a (htail ▸ List.mem_append_right _ List.mem_cons_self))

/-! ### What precedes an entry -/

/-- Every entry has the property with respect to the entries before it. -/
def Preceded (P : Tagged ι α → List (Tagged ι α) → Prop) (trace : List (Tagged ι α)) : Prop :=
  ∀ pre o post, trace = pre ++ o :: post → P o pre

theorem preceded_nil (P : Tagged ι α → List (Tagged ι α) → Prop) : Preceded P [] := by
  intro pre o post h
  exact absurd h (by simp)

theorem Preceded.append {P : Tagged ι α → List (Tagged ι α) → Prop} {trace new : List (Tagged ι α)}
    (h : Preceded P trace) (hnew : ∀ pre o post, new = pre ++ o :: post → P o (trace ++ pre)) :
    Preceded P (trace ++ new) := by
  intro pre o post heq
  rcases List.append_eq_append_iff.mp heq with ⟨c, hpre, hc⟩ | ⟨c, htrace, hc⟩
  · rw [hpre]
    exact hnew c o post hc
  · cases c with
    | nil =>
      rw [List.append_nil] at htrace
      have := hnew [] o post hc.symm
      rwa [List.append_nil, htrace] at this
    | cons d rest =>
      obtain rfl : o = d := (List.cons.inj hc).1
      exact h pre o rest htrace

end AgentKernel.Lib
