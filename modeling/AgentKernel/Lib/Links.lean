import Mathlib.Data.Fintype.Card
import Mathlib.Data.List.Chain
import Mathlib.Logic.Relation

/-! Following links.

Objects that each link to at most one other are followed from the first until there is no link, or
the link is to an object that was met already. Among finitely many objects that meets every object
that can be reached, each once, and in the order of the links, whether or not the links go round in
a circle. -/
namespace AgentKernel.Lib

variable {α : Type} {link : α → Option α}

/-- There are links from one to the other. -/
def Linked (link : α → Option α) : α → α → Prop := Relation.ReflTransGen (fun a b => link a = some b)

/-- Every object that was met links to none, to one that was met, or to the next. -/
def Followed (link : α → Option α) (met : List α) (next : Option α) : Prop :=
  ∀ a ∈ met, ∀ b, link a = some b → b ∈ met ∨ next = some b

/-- Where the next was met already, nothing is left to follow. -/
theorem Followed.done {met : List α} {next : Option α} (h : Followed link met next)
    (hnext : ∀ a, next = some a → a ∈ met) : Followed link met none := by
  intro a ha b hb
  rcases h a ha b hb with hmet | hb
  · exact .inl hmet
  · exact .inl (hnext b hb)

variable [DecidableEq α]

/-- Go on from what was met to where the last link leads, over at most so many links. -/
def follow (link : α → Option α) : Nat → List α → Option α → List α
  | 0, met, _ => met
  | _ + 1, met, none => met
  | n + 1, met, some a => if a ∈ met then met else follow link n (met ++ [a]) (link a)

theorem subset_follow (n : Nat) (met : List α) (next : Option α) : met ⊆ follow link n met next := by
  induction n generalizing met next with
  | zero => exact List.Subset.refl met
  | succ n ih =>
    cases next with
    | none => exact List.Subset.refl met
    | some a =>
      rw [follow]
      split
      · exact List.Subset.refl met
      · exact List.Subset.trans (List.subset_append_left met [a]) (ih _ _)

theorem nodup_follow (n : Nat) {met : List α} (h : met.Nodup) (next : Option α) :
    (follow link n met next).Nodup := by
  induction n generalizing met next with
  | zero => exact h
  | succ n ih =>
    cases next with
    | none => exact h
    | some a =>
      rw [follow]
      split
      · exact h
      · rename_i hnew
        exact ih (List.concat_eq_append ▸ h.concat hnew) _

/-- What is met can be reached. -/
theorem linked_follow (n : Nat) {met : List α} {next : Option α} {first : α}
    (h : ∀ a ∈ met, Linked link first a) (hnext : ∀ a, next = some a → Linked link first a) :
    ∀ a ∈ follow link n met next, Linked link first a := by
  induction n generalizing met next with
  | zero => exact h
  | succ n ih =>
    cases next with
    | none => exact h
    | some a =>
      rw [follow]
      split
      · exact h
      · refine ih (fun b hb => ?_) (fun b hb => (hnext a rfl).tail hb)
        rcases List.mem_append.mp hb with hb | hb
        · exact h b hb
        · exact (List.mem_singleton.mp hb).symm ▸ hnext a rfl

/-- With a link for every object there is, none is left to follow. -/
theorem followed_follow [Fintype α] (n : Nat) {met : List α} {next : Option α} (hnodup : met.Nodup)
    (hlong : Fintype.card α ≤ met.length + n) (h : Followed link met next) :
    (∀ a, next = some a → a ∈ follow link n met next) ∧ Followed link (follow link n met next) none := by
  induction n generalizing met next with
  | zero =>
    -- As many objects were met as there are.
    have hall : met.toFinset = Finset.univ := by
      rw [← Finset.card_eq_iff_eq_univ, List.toFinset_card_of_nodup hnodup]
      exact Nat.le_antisymm hnodup.length_le_card hlong
    have hnext : ∀ a, next = some a → a ∈ met := fun a _ => List.mem_toFinset.mp (hall ▸ Finset.mem_univ a)
    exact ⟨hnext, h.done hnext⟩
  | succ n ih =>
    cases next with
    | none => exact ⟨nofun, h.done nofun⟩
    | some a =>
      rw [follow]
      split
      · rename_i hmet
        have hnext : ∀ b, some a = some b → b ∈ met := fun b hb => Option.some.inj hb ▸ hmet
        exact ⟨hnext, h.done hnext⟩
      · rename_i hnew
        have hfollowed : Followed link (met ++ [a]) (link a) := by
          intro b hb c hc
          rcases List.mem_append.mp hb with hb | hb
          · rcases h b hb c hc with hmet | hc
            · exact .inl (List.mem_append_left _ hmet)
            · exact .inl (List.mem_append_right _ (List.mem_singleton.mpr (Option.some.inj hc).symm))
          · exact .inr (List.mem_singleton.mp hb ▸ hc)
        have hlong' : Fintype.card α ≤ (met ++ [a]).length + n := by
          rw [List.length_append, List.length_singleton]
          omega
        have hrest := ih (List.concat_eq_append ▸ hnodup.concat hnew) hlong' hfollowed
        refine ⟨fun b hb => ?_, hrest.2⟩
        have hfirst : a ∈ met ++ [a] := List.mem_append_right met List.mem_cons_self
        exact Option.some.inj hb ▸ subset_follow n _ _ hfirst

/-- Each object is linked to by the one that was met before it. -/
theorem isChain_follow (n : Nat) {met : List α} {next : Option α}
    (h : met.IsChain (fun a b => link a = some b))
    (hnext : ∀ a, met.getLast? = some a → link a = next) :
    (follow link n met next).IsChain (fun a b => link a = some b) := by
  induction n generalizing met next with
  | zero => exact h
  | succ n ih =>
    cases next with
    | none => exact h
    | some a =>
      rw [follow]
      split
      · exact h
      · refine ih (List.isChain_append.mpr ⟨h, List.IsChain.singleton a, ?_⟩) ?_
        · intro b hb c hc
          cases hc
          exact hnext b hb
        · intro b hb
          rw [List.getLast?_append, List.getLast?_singleton, Option.some_or] at hb
          exact congrArg link (Option.some.inj hb).symm

section
variable [Fintype α]

/-- The objects met from the first. -/
def followAll (link : α → Option α) (first : α) : List α := follow link (Fintype.card α) [] (some first)

theorem nodup_followAll (first : α) : (followAll link first).Nodup :=
  nodup_follow _ List.nodup_nil _

/-- **Following the links from an object meets what can be reached from it.** -/
theorem mem_followAll (first a : α) : a ∈ followAll link first ↔ Linked link first a := by
  have hnone : Followed link [] (some first) := nofun
  have hmet := followed_follow (Fintype.card α) List.nodup_nil (Nat.le_add_left _ _) hnone
  constructor
  · exact linked_follow _ nofun (fun b hb => Option.some.inj hb ▸ .refl) a
  · intro h
    induction h with
    | refl => exact hmet.1 first rfl
    | tail _ hlink ih => exact (hmet.2 _ ih _ hlink).resolve_right nofun

theorem isChain_followAll (first : α) :
    (followAll link first).IsChain (fun a b => link a = some b) :=
  isChain_follow _ List.IsChain.nil nofun

end

end AgentKernel.Lib
