import Mathlib.Data.List.Nodup

/-! What threads have in their hands.

The threads of a system stand in a list, and each has some things in its hands: connections it
took, writes it still has to make. When one thread goes on, what all of them have changes by what
that thread lets go of and takes (`countP_held_set`), which is all that a law of conservation over
interleavings needs; and a thing that is there once is in the hands of one thread. -/
namespace AgentKernel.Lib

section
variable {α β : Type} {held : α → List β}

theorem countP_held_set (held : α → List β) (p : β → Bool) {threads : List α} {i : Nat} {a : α}
    (h : threads[i]? = some a) (b : α) :
    ((threads.set i b).flatMap held).countP p + (held a).countP p =
      (threads.flatMap held).countP p + (held b).countP p := by
  induction threads generalizing i with
  | nil => cases h
  | cons x rest ih =>
    cases i with
    | zero =>
      cases h
      simp only [List.set_cons_zero, List.flatMap_cons, List.countP_append]
      omega
    | succ i =>
      have hrest := ih (i := i) h
      simp only [List.set_cons_succ, List.flatMap_cons, List.countP_append]
      omega

theorem eq_of_mem_held {threads : List α} (hnodup : (threads.flatMap held).Nodup) {i j : Nat} {a b : α}
    (ha : threads[i]? = some a) (hb : threads[j]? = some b) {c : β} (hca : c ∈ held a) (hcb : c ∈ held b) :
    i = j := by
  obtain ⟨hi, rfl⟩ := List.getElem?_eq_some_iff.mp ha
  obtain ⟨hj, rfl⟩ := List.getElem?_eq_some_iff.mp hb
  have hapart := (List.nodup_flatMap.mp hnodup).2
  rw [List.pairwise_iff_getElem] at hapart
  rcases Nat.lt_trichotomy i j with hlt | heq | hlt
  · exact absurd hcb (hapart i j hi hj hlt hca)
  · exact heq
  · exact absurd hca (hapart j i hj hi hlt hcb)

end

end AgentKernel.Lib
